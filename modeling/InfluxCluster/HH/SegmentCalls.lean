/-
  Calls on one segment in any order, with slices of EVERY kind (`hh/queue.go`, type `segment`).

  `segment` promises a queue of arbitrary byte slices.  An empty one is stored like any other, as a
  length of 0 and nothing behind it; `current` reads it back.  The trouble is the cached
  `currentSize`, from which `advance` takes the width of its step: 0 is also how `append` tells that
  there is NO current record, and then it caches the size of the slice that it has just written.  If
  the oldest slice is an empty one, that is the size of a later slice.

  1. **Purpose** — a `Log` of slices: `append` is `push`, `current` looks, `advance` is `next`
     (`SegCall.effect`, `SegCall.answer`).
  2. **Calls** — a list of `SegCall`s, run one after the other from a new segment.
  3. **Tally** — what the calls alone tell: the log, and whether the cached size is `spoiled`.  It
     is spoiled by a slice that is not empty behind an oldest one that is, and mended by `current`,
     which reads the length at `pos` again.
  4. **Result** — every call is answered as it should be and leaves `pos` where it should be exactly
     if no `advance` meets a spoiled size (`segment_stores_iff`).
-/
import InfluxCluster.HH.SegmentFaults
import InfluxCluster.HH.SegmentRun
import InfluxCluster.Lib.Lockstep

namespace InfluxCluster.HH

open InfluxCluster.Lib

/-! ## The calls, and what they are for -/

/-- A call on a segment. -/
inductive SegCall
  | append (b : Bytes)
  | current
  | advance
  deriving DecidableEq

namespace SegCall

/-- The call itself; only `current` returns something. -/
def run : SegCall → SegM (Option Bytes)
  | append b => do
    Segment.append b
    return none
  | current => do
    let b ← Segment.current
    return some b
  | advance => do
    Segment.advance
    return none

/-- What the call does to a queue of slices. -/
def effect (log : Log Bytes) : SegCall → Log Bytes
  | append b => log.push b
  | current => log
  | advance => log.next

/-- What the call answers.  `advance` says `io.EOF` when nothing is left behind the slice that it
    moved past. -/
def answer (log : Log Bytes) : SegCall → Except Err (Option Bytes)
  | append _ => .ok none
  | current =>
    match log.remaining with
    | [] => .error .eof
    | b :: _ => .ok (some b)
  | advance => if log.next.Drained then .error .eof else .ok none

end SegCall

/-- What a list of calls amounts to. -/
structure Tally where
  log : Log Bytes
  /-- The cached size is that of a later slice. -/
  spoiled : Bool

namespace Tally

/-- No call yet. -/
def start : Tally := ⟨Log.empty, false⟩

/-- The slice spoils the cached size: it is not empty, and the oldest one is. -/
def Spoils (t : Tally) (b : Bytes) : Prop := t.log.remaining.head? = some [] ∧ b ≠ []

instance (t : Tally) (b : Bytes) : Decidable (t.Spoils b) := inferInstanceAs (Decidable (_ ∧ _))

/-- One call more. -/
def after (t : Tally) (c : SegCall) : Tally :=
  { log := c.effect t.log
    spoiled :=
      match c with
      | .append b => t.spoiled || decide (t.Spoils b)
      | .current => false
      | .advance => false }

end Tally

/-- A segment in the course of its calls, with their tally. -/
structure Course where
  state : SegState
  tally : Tally

namespace Course

/-- One call more. -/
def after (x : Course) (c : SegCall) : Course := ⟨final (c.run x.state), x.tally.after c⟩

/-- The slice fits the segment, and its last byte is one that the kernel can write. -/
def Fits (x : Course) : SegCall → Prop
  | .append b => x.state.seg.size + b.length ≤ x.state.seg.maxSize ∧
      x.state.seg.size + b.length + 8 ≤ maxOffset
  | .current => True
  | .advance => True

instance (x : Course) : (c : SegCall) → Decidable (x.Fits c)
  | .append _ => inferInstanceAs (Decidable (_ ∧ _))
  | .current => isTrue trivial
  | .advance => isTrue trivial

/-- **The call is right**: it is answered as it should be, and `pos` is then the position of the
    oldest slice that has not been advanced past. -/
structure Right (x : Course) (c : SegCall) : Prop where
  answer_eq : outcome (c.run x.state) = c.answer x.tally.log
  pos_eq : (x.after c).state.seg.pos
    = offset footerSize (x.after c).tally.log.items (x.after c).tally.log.cursor

/-- The call is not an `advance` that meets a spoiled size. -/
def Mended (x : Course) (c : SegCall) : Prop := c = .advance → x.tally.spoiled = false

/-- The tally looks at the calls alone. -/
theorem tally_foldl (x : Course) (calls : List SegCall) :
    (calls.foldl after x).tally = calls.foldl Tally.after x.tally := by
  induction calls generalizing x with
  | nil => rfl
  | cons c calls ih => exact ih (x.after c)

end Course

/-! ## The cached size -/

/-- **The cached size against the tally**: that of the oldest slice — or, if it is spoiled, that of
    a slice behind it that is not empty while the oldest one is. -/
def Cached (currentSize : Int) (t : Tally) : Prop :=
  if t.spoiled then
    t.log.remaining.head? = some [] ∧
      ∃ b ∈ t.log.remaining.tail, b ≠ [] ∧ currentSize = b.length
  else currentSize = currentLen t.log

section Cached

variable {n : Int} {t : Tally}

theorem cached_of_eq {log : Log Bytes} (h : n = currentLen log) : Cached n ⟨log, false⟩ := h

theorem Cached.eq_currentLen (h : Cached n t) (hs : t.spoiled = false) : n = currentLen t.log := by
  rw [Cached, hs, if_neg Bool.false_ne_true] at h
  exact h

theorem Cached.of_spoiled (h : Cached n t) (hs : t.spoiled = true) :
    t.log.remaining.head? = some [] ∧ ∃ b ∈ t.log.remaining.tail, b ≠ [] ∧ n = b.length := by
  rw [Cached, if_pos hs] at h
  exact h

/-- A segment that has been read to its end has nothing to spoil. -/
theorem Cached.not_spoiled (h : Cached n t) (hd : t.log.Drained) : t.spoiled = false := by
  by_contra hs
  have hhead := (h.of_spoiled (Bool.eq_true_of_not_eq_false hs)).1
  rw [(Log.remaining_eq_nil_iff _).mpr hd] at hhead
  cases hhead

/-- The assignment in `append`. -/
def cacheAppend (n : Int) (b : Bytes) : Int := if n = 0 then b.length else n

/-- Once spoiled, the size stays: it is not 0. -/
theorem Cached.append_spoiled (h : Cached n t) (hs : t.spoiled = true) (b : Bytes) :
    Cached (cacheAppend n b) (t.after (.append b)) := by
  obtain ⟨hhead, c, hc, hne, hn⟩ := h.of_spoiled hs
  have hpos : 0 < c.length := List.length_pos_iff.mpr hne
  have hspoiled : (t.after (.append b)).spoiled = true := by
    show (t.spoiled || _) = true
    rw [hs, Bool.true_or]
  rw [Cached, if_pos hspoiled, cacheAppend, if_neg (by omega)]
  show (t.log.push b).remaining.head? = _ ∧ ∃ c ∈ (t.log.push b).remaining.tail, _
  rw [Log.remaining_push]
  cases hrem : t.log.remaining with
  | nil =>
    rw [hrem] at hhead
    cases hhead
  | cons a rest =>
    rw [hrem] at hhead hc
    exact ⟨hhead, c, List.mem_append_left [b] hc, hne, hn⟩

/-- A size that is right stays right, unless the slice spoils it. -/
theorem Cached.append_right (h : Cached n t) (hs : t.spoiled = false) (b : Bytes) :
    Cached (cacheAppend n b) (t.after (.append b)) := by
  have hn := h.eq_currentLen hs
  have hspoiled : (t.after (.append b)).spoiled = decide (t.Spoils b) := by
    show (t.spoiled || _) = _
    rw [hs, Bool.false_or]
  have hlog : (t.after (.append b)).log.remaining = t.log.remaining ++ [b] := Log.remaining_push _ _
  rw [currentLen] at hn
  rw [Cached, hspoiled, currentLen, hlog, cacheAppend]
  cases hrem : t.log.remaining with
  | nil =>
    -- nothing is left to read: the new slice is the oldest
    have hfree : ¬ t.Spoils b := by
      rintro ⟨hhead, -⟩
      rw [hrem] at hhead
      cases hhead
    rw [hrem] at hn
    rw [if_neg (by rwa [decide_eq_true_eq]), if_pos (show n = 0 from hn)]
    rfl
  | cons a rest =>
    rw [hrem] at hn
    by_cases ha : a = []
    · -- the oldest slice is empty, and its size is taken for "nothing left"
      subst ha
      rw [if_pos (show n = 0 from hn)]
      by_cases hb : b = []
      · subst hb
        rw [if_neg (by rw [decide_eq_true_eq]; exact fun hsp => hsp.2 rfl)]
        rfl
      · rw [if_pos (by rw [decide_eq_true_eq]; exact ⟨by rw [hrem]; rfl, hb⟩)]
        exact ⟨rfl, b, List.mem_append_right rest (List.mem_singleton_self b), hb, rfl⟩
    · have hpos : 0 < a.length := List.length_pos_iff.mpr ha
      have hna : n = a.length := hn
      have hfree : ¬ t.Spoils b := by
        rintro ⟨hhead, -⟩
        rw [hrem] at hhead
        exact ha (Option.some.inj hhead)
      rw [if_neg (by rwa [decide_eq_true_eq]), if_neg (by omega)]
      exact hna

theorem Cached.append (h : Cached n t) (b : Bytes) :
    Cached (cacheAppend n b) (t.after (.append b)) := by
  cases hs : t.spoiled with
  | false => exact h.append_right hs b
  | true => exact h.append_spoiled hs b

end Cached

/-! ## One call -/

/-- What every call keeps: nothing is scripted to fail, the file has the layout of the log, every
    slice fits, and the cached size is what the tally says. -/
structure Course.Inv (x : Course) : Prop where
  calm : x.state.disk.script = []
  holds : Holds x.state.seg x.state.disk x.tally.log x.tally.log.cursor
  small : ∀ r ∈ x.tally.log.items, (r.length : Int) ≤ x.state.seg.maxSize
  cached : Cached x.state.seg.currentSize x.tally

namespace Course

variable {x : Course}

theorem run_ok {α : Type} {m : SegM α} {g : α → Option Bytes} {s s' : SegState} {a : α}
    (h : m s = .ok a s') : (do let b ← m; return g b : SegM (Option Bytes)) s = .ok (g a) s' := by
  rw [bind_ok h]
  rfl

theorem run_error {α : Type} {m : SegM α} {g : α → Option Bytes} {s s' : SegState} {e : Err}
    (h : m s = .error e s') : (do let b ← m; return g b : SegM (Option Bytes)) s = .error e s' :=
  bind_error h

/-- From the equation of a call: it is right, and keeps the invariant. -/
theorem right_inv_of_eq {c : SegCall} {r : EStateM.Result Err SegState (Option Bytes)}
    (hrun : c.run x.state = r) (hanswer : outcome r = c.answer x.tally.log)
    (hinv : Inv ⟨final r, x.tally.after c⟩) : x.Right c ∧ (x.after c).Inv := by
  have hafter : x.after c = ⟨final r, x.tally.after c⟩ := by rw [Course.after, hrun]
  refine ⟨⟨by rw [hrun, hanswer], ?_⟩, ?_⟩
  · rw [hafter]
    exact hinv.holds.pos_eq
  · rw [hafter]
    exact hinv

/-- `append`, of a slice that fits. -/
theorem Inv.append (h : x.Inv) {b : Bytes} (hf : x.Fits (.append b)) :
    x.Right (.append b) ∧ (x.after (.append b)).Inv := by
  obtain ⟨hfit, hroom⟩ := hf
  obtain ⟨s', he, hh, hframe, hscript, hcur⟩ := Segment.append_holds h.holds hfit
    (Disk.calm_of_script_nil h.calm 4) hroom
  refine right_inv_of_eq (r := .ok none s') (run_ok (g := fun _ => none) he) rfl ⟨?_, hh, ?_, ?_⟩
  · show s'.disk.script = []
    rw [hscript, h.calm, List.drop_nil]
  · intro r hr
    show (r.length : Int) ≤ s'.seg.maxSize
    rw [hframe.maxSize_eq]
    rcases List.mem_append.mp hr with hr | hr
    · exact h.small r hr
    · have hsize := h.holds.size_eq
      rw [List.mem_singleton.mp hr]
      omega
  · show Cached s'.seg.currentSize _
    rw [hcur]
    exact h.cached.append b

/-- `current` gives the record at the cursor, or `io.EOF`. -/
theorem Inv.current (h : x.Inv) : x.Right .current ∧ (x.after .current).Inv := by
  by_cases hd : x.tally.log.Drained
  · have hrem := (Log.remaining_eq_nil_iff _).mpr hd
    have hs := h.cached.not_spoiled hd
    have hanswer : SegCall.current.answer x.tally.log = .error .eof := by
      rw [SegCall.answer, hrem]
    exact right_inv_of_eq
      (run_error (g := some) (Segment.current_eof (h.holds.pos_eq_end_iff.mpr hd)))
      hanswer.symm ⟨h.calm, h.holds, h.small, cached_of_eq (h.cached.eq_currentLen hs)⟩
  · have hlt := Log.cursor_lt_of_not_drained hd
    obtain ⟨s', k, he, hh, hframe, hk, hcur⟩ := Segment.current_holds h.holds hlt
      (Disk.calm_of_script_nil h.calm 2)
    have hsmall := h.small _ (List.getElem_mem hlt)
    rw [if_neg (by omega)] at he
    have hanswer : SegCall.current.answer x.tally.log
        = .ok (some x.tally.log.items[x.tally.log.cursor]) := by
      rw [SegCall.answer, Log.remaining_of_lt hlt]
    refine right_inv_of_eq (run_ok (g := some) he) hanswer.symm ⟨?_, hh, ?_, cached_of_eq hcur⟩
    · show s'.disk.script = []
      rw [hk, Disk.skip, h.calm, List.drop_nil]
    · intro r hr
      show (r.length : Int) ≤ s'.seg.maxSize
      rw [hframe.maxSize_eq]
      exact h.small r hr

/-- `advance`, while the cached size is right. -/
theorem Inv.advance (h : x.Inv) (hs : x.tally.spoiled = false) :
    x.Right .advance ∧ (x.after .advance).Inv := by
  have hcur := h.cached.eq_currentLen hs
  by_cases hd : x.tally.log.Drained
  · obtain ⟨off, ho⟩ := h.holds.handle
    have hnext := Log.next_of_drained hd
    have hanswer : SegCall.advance.answer x.tally.log = .error .eof := by
      rw [SegCall.answer, hnext, if_pos hd]
    have heof := Segment.advance_eof (s := x.state) (by rw [ho]; exact Option.some_ne_none _)
      (h.holds.pos_eq_end_iff.mpr hd)
    refine right_inv_of_eq (run_error (g := fun _ => none) heof) hanswer.symm ⟨h.calm, ?_, ?_, ?_⟩
    · show Holds _ _ x.tally.log.next x.tally.log.next.cursor
      rw [hnext]
      exact h.holds.sameFile ⟨rfl, rfl, rfl, rfl, rfl, rfl, rfl⟩
    · intro r hr
      rw [show (x.tally.after .advance).log = x.tally.log.next from rfl, hnext] at hr
      exact h.small r hr
    · refine cached_of_eq ?_
      rw [SegCall.effect, hnext, currentLen_of_drained hd]
      rfl
  · obtain ⟨s', he, hh, hframe, hscript, hcur'⟩ := Segment.advance_holds h.holds hd hcur
      (Disk.calm_of_script_nil h.calm 3)
    have hinv : Inv ⟨s', x.tally.after .advance⟩ := by
      refine ⟨?_, hh, fun r hr => ?_, cached_of_eq hcur'⟩
      · rw [hscript, h.calm, List.drop_nil]
      · rw [show (x.tally.after .advance).log = x.tally.log.next from rfl, Log.next_items] at hr
        rw [hframe.maxSize_eq]
        exact h.small r hr
    by_cases hdr : x.tally.log.next.Drained
    · rw [if_pos hdr] at he
      refine right_inv_of_eq (run_error (g := fun _ => none) he) ?_ hinv
      rw [SegCall.answer, if_pos hdr]
      rfl
    · rw [if_neg hdr] at he
      refine right_inv_of_eq (run_ok (g := fun _ => none) he) ?_ hinv
      rw [SegCall.answer, if_neg hdr]
      rfl

end Course

/-! ## An `advance` that meets a spoiled size -/

/-- `advance` moves by the cached size, whatever it finds there. -/
theorem Segment.advance_pos {s : SegState} {log : Log Bytes} {j : Nat}
    (h : Holds s.seg s.disk log j) (hnd : ¬ log.Drained) (hc : s.disk.script = []) :
    (final (advance s)).seg.pos = s.seg.pos + s.seg.currentSize + 8 := by
  obtain ⟨hd, u, ho, hname⟩ := h.onFile
  have hopen : s.seg.file ≠ none := by rw [ho.1]; exact Option.some_ne_none hd
  have hfits := h.fits
  have hend : (frames footerSize log.items ++ putUint64 (offset footerSize log.items j)).length
      - footerSize = (frames footerSize log.items).length := by
    rw [List.length_append, putUint64_length, footerSize, Nat.add_sub_cancel]
  have hseek := seekEnd_eq ho (by
    rw [List.length_append, putUint64_length]; exact Nat.le_add_left _ _)
  rw [hend] at hseek
  rw [advance, bind_ok (self_eq s), if_neg hopen]
  dsimp only
  rw [if_neg (fun he => hnd (h.pos_eq_end_iff.mp he)), bind_ok hseek,
    bind_ok (writeUint64_footer ho rfl (putUint64_length _) (n := 0)
      (Disk.calm_of_script_nil hc 1) (by unfold footerSize at *; omega)),
    bind_ok (fileSync_eq (m := 0) (onFile_filed _ _ _ _) (Disk.calm_of_script_nil (by
      show s.disk.script.drop 1 = []
      rw [hc, List.drop_nil]) 1)), bind_ok (assign_eq _ _)]
  -- `pos` has moved, and what is left to do only reads
  exact (reads_advance_end _).pos_eq

namespace Course

variable {x : Course}

/-- It moves past the empty slice and into the ones behind it. -/
theorem Inv.not_right_advance (h : x.Inv) (hs : x.tally.spoiled = true) : ¬ x.Right .advance := by
  obtain ⟨hhead, b, -, hne, hn⟩ := h.cached.of_spoiled hs
  have hpos : 0 < b.length := List.length_pos_iff.mpr hne
  have hd : ¬ x.tally.log.Drained := by
    intro hd
    rw [(Log.remaining_eq_nil_iff _).mpr hd] at hhead
    cases hhead
  have hlt := Log.cursor_lt_of_not_drained hd
  rw [Log.remaining_of_lt hlt] at hhead
  have hempty : x.tally.log.items[x.tally.log.cursor] = [] := Option.some.inj hhead
  have hfinal : (x.after .advance).state = final (Segment.advance x.state) := by
    rw [Course.after]
    show final (SegCall.advance.run x.state) = _
    rw [SegCall.run]
    cases he : Segment.advance x.state with
    | ok u t => rw [bind_ok he]; rfl
    | error e t => rw [bind_error he]; rfl
  intro hright
  have heq := hright.pos_eq
  rw [hfinal, Segment.advance_pos h.holds hd h.calm, h.holds.pos_eq, hn] at heq
  rw [show (x.after .advance).tally.log = x.tally.log.next from rfl, Log.next_of_lt hlt] at heq
  simp only [offset_succ hlt, hempty, List.length_nil, footerSize] at heq
  omega

/-! ## Runs -/

/-- **One call is right exactly if it is no `advance` that meets a spoiled size.** -/
theorem Inv.right_iff (h : x.Inv) {c : SegCall} (hf : x.Fits c) : x.Right c ↔ x.Mended c := by
  cases c with
  | append b => exact ⟨fun _ he => SegCall.noConfusion he, fun _ => (h.append hf).1⟩
  | current => exact ⟨fun _ he => SegCall.noConfusion he, fun _ => h.current.1⟩
  | advance =>
    constructor
    · intro hright _
      by_contra hs
      exact h.not_right_advance (Bool.eq_true_of_not_eq_false hs) hright
    · exact fun hm => (h.advance (hm rfl)).1

/-- **One call**, if it fits and finds the size mended. -/
theorem Inv.after (h : x.Inv) {c : SegCall} (hf : x.Fits c) (hm : x.Mended c) :
    (x.after c).Inv := by
  cases c with
  | append b => exact (h.append hf).2
  | current => exact h.current.2
  | advance => exact (h.advance (hm rfl)).2

/-- A new segment, before the first call. -/
theorem inv_start {path : FileName} {maxSize : Int} {d d' : Disk} {l : Segment}
    (hcalm : d.script = []) (hfree : d.entries.lookup path = none)
    (hnew : newSegment path maxSize d = .ok l d') : Inv ⟨⟨l, d'⟩, .start⟩ := by
  obtain ⟨l', f, he, hc, -⟩ :=
    Segment.newSegment_clean maxSize hfree (Disk.calm_of_script_nil hcalm 2)
  rw [hnew] at he
  cases he
  refine ⟨?_, hc.toHolds, fun r hr => absurd hr List.not_mem_nil, cached_of_eq hc.cur_eq⟩
  show d.script.drop 2 = []
  rw [hcalm, List.drop_nil]

end Course

/-- **When a segment stores arbitrary slices.**  In a list of calls on a new segment without I/O
    faults, every slice of which fits, `current` returns the oldest slice not yet advanced past, or
    `io.EOF`, and every `advance` moves past exactly one — if and only if no `advance` comes while a
    slice that is not empty has been appended behind an oldest one that is, with no `current`
    since. -/
theorem segment_stores_iff {path : FileName} {maxSize : Int} {d d' : Disk} {l : Segment}
    (hcalm : d.script = []) (hfree : d.entries.lookup path = none)
    (hnew : newSegment path maxSize d = .ok l d') (calls : List SegCall)
    (hfits : Throughout Course.after Course.Fits ⟨⟨l, d'⟩, .start⟩ calls) :
    Throughout Course.after Course.Right ⟨⟨l, d'⟩, .start⟩ calls
      ↔ ∀ k, calls[k]? = some .advance →
          ((calls.take k).foldl Tally.after .start).spoiled = false := by
  rw [throughout_iff_of_inv (J := Course.Inv) (R := Course.Mended)
    (fun x c h hf hm => h.after hf hm) (fun x c h hf => h.right_iff hf)
    (Course.inv_start hcalm hfree hnew) hfits]
  constructor
  · intro h k hk
    have hm := h k .advance hk rfl
    rw [Course.tally_foldl] at hm
    exact hm
  · rintro h k c hk rfl
    rw [Course.tally_foldl]
    exact h k hk

/-- Three slices, one of them empty, each read before it is advanced past. -/
def carefulCalls : List SegCall :=
  [.append [7], .append [], .append [8, 9], .current, .advance, .append [10], .current, .advance,
    .current]

theorem segment_stores_careful : ∃ l d', newSegment ['1'] 100 Disk.empty = .ok l d' ∧
    Throughout Course.after Course.Right ⟨⟨l, d'⟩, .start⟩ carefulCalls := by
  have hfree : Disk.empty.entries.lookup ['1'] = none := rfl
  refine ⟨_, _, rfl, (segment_stores_iff rfl hfree rfl carefulCalls ?_).mpr ?_⟩
  · decide +kernel
  · have hall : ∀ k < 9, carefulCalls[k]? = some .advance →
        ((carefulCalls.take k).foldl Tally.after .start).spoiled = false := by
      decide +kernel
    intro k hk
    exact hall k (List.getElem?_eq_some_iff.mp hk).1 hk

/-- An empty slice, one of a byte behind it, and a step past the empty one. -/
def hastyCalls : List SegCall := [.append [], .append [1], .advance, .current]

/-- **`advance` moves by the size of the wrong slice.**  Both slices fit; `pos` should be 8, where
    the second one is, and `current` should return it. -/
theorem empty_slice_misleads_advance : ∃ l d', newSegment ['1'] 100 Disk.empty = .ok l d' ∧
    Throughout Course.after Course.Fits ⟨⟨l, d'⟩, .start⟩ hastyCalls ∧
    ((hastyCalls.take 3).foldl Course.after ⟨⟨l, d'⟩, .start⟩).state.seg.pos = 9 ∧
    ((hastyCalls.take 3).foldl Tally.after .start).log.remaining = [[1]] ∧
    outcome (SegCall.current.run
      ((hastyCalls.take 3).foldl Course.after ⟨⟨l, d'⟩, .start⟩).state)
      = .error (.recordSize 100 257) := by
  refine ⟨_, _, rfl, ?_, ?_, ?_, ?_⟩
  · decide +kernel
  · decide +kernel
  · decide +kernel
  · rfl

end InfluxCluster.HH
