/-
  When `Append` may be believed.

  An `Append` that returns nil acknowledges a slice.  Two things make it acknowledge a slice that is
  NOT STORED:

  * a write that fails in the tail.  `Append` drops the error, and bytes may be left where the
    footer was;
  * a `PurgeOlderThan` that purges every segment.  It makes a new one without making it the tail:
    `l.tail` stays a closed segment outside `l.segments`, and `Append` drops its `ErrNotOpen`.

  Three more break the layout that the content is read from: an `Advance` that trusts a wrong cached
  size, one whose footer is written in part, and a new segment under a name that a file has already
  (behind the segment 2^64 - 1 comes the segment 0 again).  `Open` and `Current` never do, whatever
  fails in them, and `SetMaxSegmentSize` only in the last way.  `Safe` excludes the five, step by
  step, and in the runs whose steps are all `Safe` an acknowledged slice is the last record of the
  last segment (`acknowledged_is_stored`).
-/
import InfluxCluster.HH.QueueFaults

namespace InfluxCluster.HH

open InfluxCluster.Lib

/-! ## What a step may meet -/

instance (d : Disk) (n : Nat) : Decidable (d.Calm n) :=
  inferInstanceAs (Decidable (∀ o ∈ d.script.take n, o = .ok))

/-- An `Append` that finds room in the tail meets no fault.  One that rolls over makes a new segment
    under a free name with its first two calls; if these succeed the rest meets no fault, or fails at
    once. -/
def AppendSafe (s : QState) (b : Bytes) : Prop :=
  s.Roomy b ∧ ∀ p ∈ s.q.tail, s.usage + b.length ≤ s.q.maxSize →
    if (s.heap p).size + b.length ≤ (s.heap p).maxSize then s.disk.Calm 4
    else (s.disk.skip 2).Calm 4 ∨ (s.disk.skip 2).outcome = .fail 0

/-- The cached size is the length that stands at `pos`. -/
def CachedRight (l : Segment) (d : Disk) : Prop :=
  ∃ f ∈ d.file? l.path, l.currentSize = beNat ((f.data.drop l.pos.toNat).take 8)

/-- An `Advance` finds the head read to its end, or moves by a size that is right and writes the
    footer whole or not at all. -/
def AdvanceSafe (s : QState) : Prop :=
  ∀ p ∈ s.q.head, (s.heap p).pos = (s.heap p).size - footerSize ∨
    CachedRight (s.heap p) s.disk ∧ (s.disk.outcome = .ok ∨ s.disk.outcome = .fail 0)

/-- A purge finds a segment that it does not purge. -/
def PurgeSafe (s : QState) (when_ : Time) : Prop :=
  s.q.segments = [] ∨ ∃ p ∈ s.q.segments, ∃ f ∈ s.disk.file? (s.heap p).path,
    Queue.truncateSecond when_ ≤ f.modTime

instance (s : QState) (b : Bytes) : Decidable (AppendSafe s b) := inferInstanceAs (Decidable (_ ∧ _))

instance (l : Segment) (d : Disk) : Decidable (CachedRight l d) :=
  inferInstanceAs (Decidable (∃ f ∈ d.file? l.path, _))

instance (s : QState) : Decidable (AdvanceSafe s) := inferInstanceAs (Decidable (∀ p ∈ s.q.head, _))

instance (s : QState) (when_ : Time) : Decidable (PurgeSafe s when_) :=
  inferInstanceAs (Decidable (_ ∨ _))

section Methods

variable {s : QState} {chain cs : List (Ptr × Log Bytes)} {c : Ptr × Log Bytes} {b : Bytes}

/-! ## `Append` -/

/-- The last segment takes the slice if it has room and nothing fails. -/
theorem Sound.append_last (h : Sound s (cs ++ [c])) (hroom : HH.Roomy (s.heap c.1) b)
    (hfit : (s.heap c.1).size + b.length ≤ (s.heap c.1).maxSize) (hc : s.disk.Calm 4) :
    ∃ t, Segment.append b { seg := s.heap c.1, disk := s.disk } = .ok () t ∧
      Sound (s.put c.1 t) (cs ++ [(c.1, c.2.push b)]) := by
  obtain ⟨j, hj⟩ := h.holds c (by simp)
  obtain ⟨t, he, hh, hf, -⟩ := Segment.append_holds (s := { seg := s.heap c.1, disk := s.disk }) hj
    hfit hc (hroom hfit)
  exact ⟨t, he, h.update ⟨_, hh⟩ hf⟩

/-- The last segment takes the slice, or says that it does not. -/
theorem Sound.call_append (h : Sound s (cs ++ [c])) (hroom : HH.Roomy (s.heap c.1) b)
    (hcalm : s.disk.Calm 4 ∨ s.disk.outcome = .fail 0) :
    ∃ log, Sound (final (call c.1 (Segment.append b) s)) (cs ++ [(c.1, log)]) ∧
      ∀ s', call c.1 (Segment.append b) s = .ok () s' → log = c.2.push b := by
  obtain ⟨j, hj⟩ := h.holds c (by simp)
  by_cases hfit : (s.heap c.1).size + b.length ≤ (s.heap c.1).maxSize
  · rcases hcalm with hcalm | hfail
    · obtain ⟨t, he, hs⟩ := h.append_last hroom hfit hcalm
      rw [call_ok he]
      exact ⟨_, hs, fun _ _ => rfl⟩
    · obtain ⟨t, he, hh, hf⟩ := Segment.append_refused (b := b)
        (s := { seg := s.heap c.1, disk := s.disk }) hj hfit hfail
      rw [call_error he]
      refine ⟨c.2, h.update ⟨j, hh⟩ hf, ?_⟩
      rintro s' hx
      cases hx
  · obtain ⟨off, ho⟩ := hj.handle
    have he := Segment.append_full (b := b) (s := { seg := s.heap c.1, disk := s.disk })
      (by rw [ho]; exact Option.some_ne_none _) (by simp only; omega)
    rw [call_error he, QState.put, Function.update_eq_self]
    refine ⟨c.2, h, ?_⟩
    rintro s' hx
    cases hx

/-- **`Append`** keeps the invariant if it is safe, and what it acknowledges is at the end of the
    last segment. -/
theorem Sound.append (h : Sound s chain) (hsafe : AppendSafe s b) :
    ∃ chain', Sound (final (Queue.append b s)) chain' ∧
      ∀ s', Queue.append b s = .ok () s' →
        ∃ (cs : List (Ptr × Log Bytes)) (p : Ptr) (log : Log Bytes),
          chain' = cs ++ [(p, log.push b)] ∧
          Chain.content (logs cs) ++ log.remaining = Chain.content (logs chain) := by
  by_cases hne : chain = []
  · subst hne
    rw [append_notOpen h.tail_eq]
    refine ⟨[], h, ?_⟩
    rintro s' hx
    cases hx
  obtain ⟨cs, c, rfl, htail, hopen⟩ := h.toRep.exists_tail layout_loose hne
  obtain ⟨hroom, hcalm⟩ := hsafe
  by_cases hq : s.usage + b.length ≤ s.q.maxSize
  · have hcalm' := hcalm c.1 htail hq
    by_cases hfit : (s.heap c.1).size + b.length ≤ (s.heap c.1).maxSize
    · -- there is room in the tail
      rw [if_pos hfit] at hcalm'
      obtain ⟨t, he, hs⟩ := h.append_last (hroom.1 c.1 htail) hfit hcalm'
      rw [append_stored htail hq he]
      refine ⟨_, hs, fun s' _ => ⟨cs, c.1, c.2, rfl, ?_⟩⟩
      rw [logs_append, Chain.content_append]
      simp [logs]
    · -- the tail is full: the slice goes into a new segment, if there is one
      rw [if_neg hfit] at hcalm'
      rw [append_full htail hq hopen (by omega)]
      have hfree : NextFree s.disk := hroom.2.2 ⟨hq, c.1, htail, by omega⟩
      rcases h.addSegment hne hfree with ⟨l, d', ha, hs, hsize, hmax, hscr⟩ | ⟨e, d', ha, hs⟩
      · have hscript : (s.rolled l d').disk.script = (s.disk.skip 2).script := hscr
        obtain ⟨log, hs', hlog⟩ := hs.call_append (hroom.rolled hsize hmax) (by
          rw [Disk.Calm, Disk.outcome, hscript]
          exact hcalm')
        rw [append_rolled ha]
        refine ⟨_, hs', fun s' hx => ⟨cs ++ [c], s.next, Log.empty, ?_, List.append_nil _⟩⟩
        rw [hlog s' hx]
      · rw [bind_error ha]
        refine ⟨_, hs, ?_⟩
        rintro s' hx
        cases hx
  · rw [append_queueFull htail (by omega)]
    refine ⟨_, h, ?_⟩
    rintro s' hx
    cases hx

/-! ## `Current`, `Advance`, `SetMaxSegmentSize` -/

/-- **`Current`** keeps the invariant, whatever fails. -/
theorem Sound.current (h : Sound s chain) : Sound (final (Queue.current s)) chain := by
  cases chain with
  | nil =>
    rw [Queue.current, bind_ok (self_run s), h.head_eq]
    exact h
  | cons c cs =>
    rw [current_eq_call h.head_eq]
    exact h.reads_head Segment.reads_current

/-- The length that stands at `pos` is that of the record under the cursor. -/
theorem cachedRight_iff {l : Segment} {d : Disk} {log : Log Bytes} {j : Nat} (h : Holds l d log j)
    (hd : ¬ log.Drained) : CachedRight l d ↔ l.currentSize = currentLen log := by
  have hlt := Log.cursor_lt_of_not_drained hd
  obtain ⟨t, ht⟩ := h.stored
  have hlen : beNat (((frames footerSize log.items
      ++ putUint64 (offset footerSize log.items j)).drop l.pos.toNat).take 8) = currentLen log := by
    rw [h.pos_eq, Int.toNat_natCast, Holds.drop_pos log hlt, List.take_left' (putUint64_length _),
      beNat_putUint64 (h.item_le (List.getElem_mem hlt)), currentLen_of_lt hlt]
  constructor
  · rintro ⟨f, hf, hcur⟩
    rw [Option.mem_def, ht] at hf
    cases hf
    rw [hcur, hlen]
  · intro hcur
    exact ⟨_, ht, by rw [hlen]; exact hcur⟩

/-- **`Advance`** keeps the invariant if it is safe. -/
theorem Sound.advance (h : Sound s chain) (hsafe : AdvanceSafe s) :
    ∃ chain', Sound (final (Queue.advance s)) chain' := by
  cases chain with
  | nil =>
    rw [Queue.advance, bind_ok (self_run s), h.head_eq]
    exact ⟨[], h⟩
  | cons c cs =>
    have hhead : s.q.head = some c.1 := h.head_eq
    obtain ⟨j, hj⟩ := h.holds c List.mem_cons_self
    have hsafe' : c.2.Drained ∨ (s.heap c.1).currentSize = currentLen c.2 ∧
        (s.disk.outcome = .ok ∨ s.disk.outcome = .fail 0) := by
      by_cases hd : c.2.Drained
      · exact Or.inl hd
      · obtain ⟨hcur, hout⟩ := (hsafe c.1 hhead).resolve_left fun hp =>
          hd (hj.pos_eq_end_iff.mp hp)
        exact Or.inr ⟨(cachedRight_iff hj hd).mp hcur, hout⟩
    obtain ⟨log, j', hh, hf⟩ := Segment.advance_loose
      (s := { seg := s.heap c.1, disk := s.disk }) hj hsafe'
    have hs : Sound (final (call c.1 Segment.advance s)) ((c.1, log) :: cs) := by
      rw [final_call]
      exact h.update_head ⟨j', hh⟩ hf
    rw [Queue.advance, bind_ok (self_run s), hhead]
    dsimp only
    cases he : call c.1 Segment.advance s with
    | ok u s1 =>
      rw [he] at hs
      rw [bind_ok (attempt_ok he)]
      exact ⟨_, hs⟩
    | error e s1 =>
      rw [he] at hs
      rw [bind_ok (attempt_error he)]
      cases e with
      | eof => exact hs.trimHead
      | _ => exact ⟨_, hs⟩

/-- **`SetMaxSegmentSize`** keeps the invariant, whatever fails, unless it meets a name that is
    taken. -/
theorem Sound.setMaxSegmentSize (h : Sound s chain) {size : Int} (hsafe : s.Resizable size) :
    ∃ chain', Sound (final (Queue.setMaxSegmentSize size s)) chain' := by
  have hs : Sound { s.limited size s.q.segments with
      q := { s.q with maxSegmentSize := size } } chain := by
    refine ⟨h.toRep.limited layout_loose size s.q.segments size, h.files, ?_⟩
    intro c hc
    have hn := h.numeric c hc
    rw [← limited_path s size s.q.segments c.1] at hn
    exact hn
  by_cases hne : chain = []
  · subst hne
    rw [setMaxSegmentSize_notOpen h.tail_eq]
    exact ⟨[], hs⟩
  obtain ⟨cs, c, rfl, htail, -⟩ := h.toRep.exists_tail layout_loose hne
  rw [setMaxSegmentSize_run htail]
  split
  · rename_i hle
    rw [limited_size] at hle
    rcases hs.addSegment hne (hsafe ⟨c.1, htail, hle⟩) with ⟨l, d', ha, hroll, -⟩ | ⟨e, d', ha, hs'⟩
    · rw [bind_ok ha, assign_run]
      exact ⟨_, hroll⟩
    · rw [bind_error ha]
      exact ⟨_, hs'⟩
  · exact ⟨_, hs⟩

/-! ## `PurgeOlderThan` -/

/-- **The loop of `PurgeOlderThan`**, by induction on its rounds: a segment that is not older than
    the cutoff stays, so the head that is dropped is never the last one. -/
theorem Sound.purgeLoop (cutoff : Time) (fuel : Nat) : ∀ (s : QState)
    (chain : List (Ptr × Log Bytes)), Sound s chain →
    (∃ c ∈ chain, ∃ f ∈ s.disk.file? (s.heap c.1).path, cutoff ≤ f.modTime) →
    ∃ chain', Sound (final (Queue.purgeLoop cutoff fuel s)) chain' := by
  induction fuel with
  | zero => exact fun s chain h _ => ⟨chain, h⟩
  | succ fuel ih =>
    rintro s chain h ⟨w, hw, g, hg, hcut⟩
    obtain ⟨c, cs, rfl⟩ := List.exists_cons_of_ne_nil (List.ne_nil_of_mem hw)
    have hhead : s.q.head = some c.1 := h.head_eq
    have hderef : deref s.q.head s = .ok c.1 s := by
      rw [hhead]; rfl
    obtain ⟨j, hj⟩ := h.holds c List.mem_cons_self
    obtain ⟨off, ho⟩ := hj.handle
    obtain ⟨t, ht⟩ := hj.stored
    have hmod : call c.1 Segment.lastModified s = .ok t s := by
      have hx : Segment.lastModified { seg := s.heap c.1, disk := s.disk }
          = .ok t { seg := s.heap c.1, disk := s.disk } := by
        rw [Segment.lastModified]
        simp only [ho, ht]
      rw [call_ok hx, QState.put, Function.update_eq_self]
    rw [Queue.purgeLoop, bind_ok (self_run s), bind_ok hderef, bind_ok hmod]
    by_cases hold : t < cutoff
    · -- the head is dropped, and is not the segment that stays
      have hwc : w ≠ c := by
        rintro rfl
        rw [Option.mem_def, ht] at hg
        cases hg
        exact absurd hcut (Nat.not_le.mpr hold)
      have hwcs : w ∈ cs := (List.mem_cons.mp hw).resolve_left hwc
      obtain ⟨c', cs', rfl⟩ := List.exists_cons_of_ne_nil (List.ne_nil_of_mem hwcs)
      have hlen : ¬ s.q.segments.length = 1 := by
        rw [h.segments_eq]
        simp
      obtain ⟨htrim, hs⟩ := h.trimmed
      rw [if_pos hold, if_neg hlen]
      dsimp only
      rw [bind_ok htrim]
      refine ih _ _ hs ⟨w, hwcs, g, ?_, hcut⟩
      have hrest : Linked Loose s ([c] ++ c' :: cs') := h.toLinked
      have hne : (s.heap w.1).path ≠ (s.heap c.1).path :=
        (hrest.disjoint List.mem_cons_self hwcs).symm
      rw [show (s.trimmed c.1).heap w.1 = s.heap w.1 from
        Function.update_of_ne (fun he => hne (by rw [he])) .., Option.mem_def, ← hg]
      exact Disk.file?_remove_ne _ hne
    · rw [if_neg hold]
      exact ⟨_, h⟩

/-- **`PurgeOlderThan`** keeps the invariant if it is safe. -/
theorem Sound.purgeOlderThan (h : Sound s chain) (fuel : Nat) {when_ : Time}
    (hsafe : PurgeSafe s when_) :
    ∃ chain', Sound (final (Queue.purgeOlderThan fuel when_ s)) chain' := by
  rw [Queue.purgeOlderThan, bind_ok (self_run s)]
  rcases hsafe with hnil | ⟨p, hp, f, hf, hcut⟩
  · rw [if_neg (by rw [hnil]; exact fun hx => hx rfl)]
    exact ⟨_, h⟩
  · rw [if_pos fun hx => List.ne_nil_of_mem hp (List.length_eq_zero_iff.mp hx)]
    refine Sound.purgeLoop _ fuel s chain h ?_
    rw [h.segments_eq] at hp
    obtain ⟨c, hc, rfl⟩ := List.mem_map.mp hp
    exact ⟨c, hc, f, hf, hcut⟩

end Methods

/-! ## Runs -/

/-- The methods that a run is made of. -/
inductive Method
  | openQueue
  | append (b : Bytes)
  | current
  | advance
  | setMaxSegmentSize (size : Int)
  | purgeOlderThan (fuel : Nat) (when_ : Time)

/-- The state after a method. -/
def Method.after : Method → QState → QState
  | .openQueue, s => final (Queue.openQueue s)
  | .append b, s => final (Queue.append b s)
  | .current, s => final (Queue.current s)
  | .advance, s => final (Queue.advance s)
  | .setMaxSegmentSize size, s => final (Queue.setMaxSegmentSize size s)
  | .purgeOlderThan fuel when_, s => final (Queue.purgeOlderThan fuel when_ s)

/-- What a method may meet. -/
def Safe (s : QState) : Method → Prop
  | .append b => AppendSafe s b
  | .advance => AdvanceSafe s
  | .setMaxSegmentSize size => s.Resizable size
  | .purgeOlderThan _ when_ => PurgeSafe s when_
  | .openQueue | .current => True

instance (s : QState) (m : Method) : Decidable (Safe s m) :=
  match m with
  | .append _ => inferInstanceAs (Decidable (AppendSafe _ _))
  | .advance => inferInstanceAs (Decidable (AdvanceSafe _))
  | .setMaxSegmentSize _ => inferInstanceAs (Decidable (QState.Resizable _ _))
  | .purgeOlderThan _ _ => inferInstanceAs (Decidable (PurgeSafe _ _))
  | .openQueue | .current => isTrue trivial

/-- The state with the clock and the faults that the next method is going to meet. -/
def QState.facing (s : QState) (now : Time) (faults : List Outcome) : QState :=
  { s with disk := { s.disk with now := now, script := faults } }

/-- The states reached from `s₀` by methods that `may` allows, each with its own clock and
    faults. -/
inductive Faulty (s₀ : QState) (may : QState → Method → Prop) : QState → Prop
  | start : Faulty s₀ may s₀
  | step {s : QState} (hrun : Faulty s₀ may s) (now : Time) (faults : List Outcome) {m : Method}
      (hmay : may (s.facing now faults) m) : Faulty s₀ may (m.after (s.facing now faults))

theorem Sound.facing {s : QState} {chain : List (Ptr × Log Bytes)} (h : Sound s chain) (now : Time)
    (faults : List Outcome) : Sound (s.facing now faults) chain := h.of_entries rfl

/-- One step keeps the invariant if it is safe. -/
theorem Sound.after {s : QState} {chain : List (Ptr × Log Bytes)} (h : Sound s chain) {m : Method}
    (hsafe : Safe s m) : ∃ chain', Sound (m.after s) chain' := by
  cases m with
  | openQueue => exact h.openQueue
  | append b =>
    obtain ⟨chain', hs, -⟩ := h.append hsafe
    exact ⟨chain', hs⟩
  | current => exact ⟨chain, h.current⟩
  | advance => exact h.advance hsafe
  | setMaxSegmentSize size => exact h.setMaxSegmentSize hsafe
  | purgeOlderThan fuel when_ => exact h.purgeOlderThan fuel hsafe

/-- A queue not yet opened, over a directory whose segment files are as they should be. -/
theorem sound_fresh (maxSize maxSegmentSize : Int) {d : Disk} (hd : FilesOK d) :
    Sound (QState.fresh maxSize maxSegmentSize d) [] :=
  ⟨⟨Linked.nil, rfl, rfl, rfl⟩, hd, fun _ hc => absurd hc List.not_mem_nil⟩

/-- The invariant along a run whose steps are all safe. -/
theorem Faulty.sound {s₀ s : QState} {chain : List (Ptr × Log Bytes)} (h₀ : Sound s₀ chain)
    (hrun : Faulty s₀ Safe s) : ∃ chain', Sound s chain' := by
  induction hrun with
  | start => exact ⟨chain, h₀⟩
  | step _ now faults hmay ih =>
    obtain ⟨chain', hs⟩ := ih
    exact (hs.facing now faults).after hmay

/-- **An acknowledged slice is stored.**  After every run whose steps are all safe, a safe `Append`
    that returns nil has put its slice at the end of the last segment, and the content is what it
    was, followed by the slice. -/
theorem acknowledged_is_stored {maxSize maxSegmentSize : Int} {d : Disk} {s s' : QState} {b : Bytes}
    (hdir : FilesOK d) (hrun : Faulty (QState.fresh maxSize maxSegmentSize d) Safe s) (now : Time)
    (faults : List Outcome) (hsafe : AppendSafe (s.facing now faults) b)
    (hack : Queue.append b (s.facing now faults) = .ok () s') :
    ∃ rem, content s = some rem ∧ content s' = some (rem ++ [b]) ∧
      ∃ p rs, s'.q.segments.getLast? = some p ∧ unread (s'.heap p) s'.disk = some (rs ++ [b]) := by
  obtain ⟨chain, hs⟩ := hrun.sound (sound_fresh maxSize maxSegmentSize hdir)
  obtain ⟨chain', hafter, hstored⟩ := (hs.facing now faults).append hsafe
  rw [hack, final_ok] at hafter
  obtain ⟨cs, p, log, rfl, hcontent⟩ := hstored s' hack
  refine ⟨_, hs.toRep.content_eq layout_loose, ?_, p, log.remaining, ?_, ?_⟩
  · rw [hafter.toRep.content_eq layout_loose, logs_append, Chain.content_append, ← hcontent]
    simp [logs]
  · rw [hafter.segments_eq, List.map_append]
    exact List.getLast?_concat
  · obtain ⟨j, hj⟩ := hafter.holds (p, log.push b) (by simp)
    rw [hj.unread_eq, Log.remaining_push]

theorem acknowledged_is_stored_two : ∃ (s s' : QState) (rem : List Bytes),
    Faulty (QState.fresh 1000 17 Disk.empty) Safe s ∧
    Queue.append [2] (s.facing 6 [.ok, .ok]) = .ok () s' ∧ content s = some rem ∧
    content s' = some (rem ++ [[2]]) := by
  -- `Open`, then an `Append` that fills the segment, then a `Current` whose second read fails
  have hrun : Faulty (QState.fresh 1000 17 Disk.empty) Safe _ :=
    ((Faulty.start.step 0 [] (m := .openQueue) trivial).step 5 [] (m := .append [1])
      (by decide +kernel)).step 5 [.ok, .fail 0] (m := .current) trivial
  have hdir : FilesOK Disk.empty := fun name f hf => absurd hf (Option.some_ne_none f).symm
  obtain ⟨rem, hrem, hrem', -⟩ := acknowledged_is_stored (b := [2]) hdir hrun 6 [.ok, .ok]
    (by decide +kernel) (eq_ok_of_returned (by decide +kernel))
  exact ⟨_, _, rem, hrun, eq_ok_of_returned (by decide +kernel), hrem, hrem'⟩

/-- **Acknowledged and lost**, twice.  The only segment is purged, and the next slice goes to the
    closed segment that is still the tail.  The first write of an `Append` fails, and the error is
    dropped. -/
theorem acknowledged_and_lost :
    (∃ s s', Faulty (QState.fresh 1000 100 Disk.empty) (fun _ _ => True) s ∧
      Queue.append [2] (s.facing 5000000000 []) = .ok () s' ∧
      content s = some [] ∧ content s' = some []) ∧
    ∃ s s', Faulty (QState.fresh 1000 100 Disk.empty) (fun _ _ => True) s ∧
      Queue.append [2] (s.facing 0 [.fail 0]) = .ok () s' ∧
      content s = some [[1]] ∧ content s' = some [[1]] := by
  have hrun : Faulty (QState.fresh 1000 100 Disk.empty) (fun _ _ => True) _ :=
    (Faulty.start.step 0 [] (m := .openQueue) trivial).step 0 [] (m := .append [1]) trivial
  refine ⟨⟨_, _, hrun.step 5000000000 [] (m := .purgeOlderThan 2 5000000000) trivial,
      eq_ok_of_returned (by decide +kernel), by decide +kernel, by decide +kernel⟩,
    _, _, hrun, eq_ok_of_returned (by decide +kernel), by decide +kernel, by decide +kernel⟩

end InfluxCluster.HH
