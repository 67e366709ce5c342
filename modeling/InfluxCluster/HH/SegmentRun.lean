/-
  Runs of one segment in which nothing fails.

  A run starts with `newSegment` on a free name and goes on with `append` (of slices that are not
  empty), `current` and `advance` in any order, while the clock moves as it likes.  The run keeps
  the list of the slices whose `append` returned nil.

  The step lemmas of `SegmentSpec` say that `append` is `push`, that `advance` is `next` and that
  `current` changes nothing that matters; so the segment stays `Clean` for a log whose items are
  exactly the appended slices (`SegmentRun.clean`).  From that the file is known to the last byte,
  and `newSegment` on it, which knows nothing of the run, finds the same counters again.
-/
import InfluxCluster.HH.SegmentSpec

namespace InfluxCluster.HH

open InfluxCluster.Lib

/-- The disk at another time. -/
def Disk.at (d : Disk) (t : Time) : Disk := { d with now := t }

/-- What passes the limit of the segment also ends below the largest offset: a write that the
    kernel refuses is an I/O fault. -/
def Roomy (l : Segment) (b : Bytes) : Prop :=
  l.size + b.length ≤ l.maxSize → l.size + b.length + 8 ≤ maxOffset

instance (l : Segment) (b : Bytes) : Decidable (Roomy l b) := inferInstanceAs (Decidable (_ → _))

/-- **The runs of a segment** without I/O faults: the state reached, and the slices appended. -/
inductive SegmentRun (path : FileName) : SegState → List Bytes → Prop
  | start {d d' : Disk} {l : Segment} {maxSize : Int} (hcalm : d.script = [])
      (hfree : d.entries.lookup path = none) (hnew : newSegment path maxSize d = .ok l d') :
      SegmentRun path ⟨l, d'⟩ []
  | stored {s s' : SegState} {recs : List Bytes} {b : Bytes} (hrun : SegmentRun path s recs)
      (hb : b ≠ []) (hroom : Roomy s.seg b) (hcall : Segment.append b s = .ok () s') :
      SegmentRun path s' (recs ++ [b])
  | refused {s s' : SegState} {recs : List Bytes} {b : Bytes} {e : Err}
      (hrun : SegmentRun path s recs) (hb : b ≠ []) (hroom : Roomy s.seg b)
      (hcall : Segment.append b s = .error e s') : SegmentRun path s' recs
  | current {s : SegState} {recs : List Bytes} (hrun : SegmentRun path s recs) :
      SegmentRun path (final (Segment.current s)) recs
  | advance {s : SegState} {recs : List Bytes} (hrun : SegmentRun path s recs) :
      SegmentRun path (final (Segment.advance s)) recs
  | tick {s : SegState} {recs : List Bytes} (hrun : SegmentRun path s recs) (t : Time) :
      SegmentRun path { s with disk := s.disk.at t } recs

/-! ## The layout along a run -/

/-- What a run of a segment keeps: nothing is scripted to fail, the file is the one the run began
    with, and the segment is clean for a log of exactly the appended slices. -/
structure Tracks (path : FileName) (s : SegState) (recs : List Bytes) (log : Log Bytes) : Prop where
  calm : s.disk.script = []
  path_eq : s.seg.path = path
  clean : Clean s.seg s.disk log
  items_eq : log.items = recs

/-- `append` either fits and is a push, or is refused and changes nothing. -/
theorem Tracks.append {path : FileName} {s : SegState} {recs : List Bytes} {log : Log Bytes}
    {b : Bytes} (h : Tracks path s recs log) (hb : b ≠ []) (hroom : Roomy s.seg b) :
    (∃ s', Segment.append b s = .ok () s' ∧ Tracks path s' (recs ++ [b]) (log.push b)) ∨
    Segment.append b s = .error .segmentFull s := by
  by_cases hfit : s.seg.size + b.length ≤ s.seg.maxSize
  · obtain ⟨s', he, hc, hf, hs⟩ := Segment.append_clean h.clean hb hfit
      (Disk.calm_of_script_nil h.calm 4) (hroom hfit)
    refine Or.inl ⟨s', he, ?_, ?_, hc, ?_⟩
    · rw [hs, h.calm, List.drop_nil]
    · rw [hf.path_eq, h.path_eq]
    · rw [Log.push_items, h.items_eq]
  · obtain ⟨off, ho⟩ := h.clean.handle
    exact Or.inr (Segment.append_full (by rw [ho]; exact Option.some_ne_none _) (by omega))

/-- **Every run keeps the segment clean.** -/
theorem SegmentRun.tracks {path : FileName} {s : SegState} {recs : List Bytes}
    (h : SegmentRun path s recs) : ∃ log, Tracks path s recs log := by
  induction h with
  | @start d d' l maxSize hcalm hfree hnew =>
    obtain ⟨l', f, he, hc, hp, -⟩ :=
      Segment.newSegment_clean maxSize hfree (Disk.calm_of_script_nil hcalm 2)
    rw [hnew] at he
    cases he
    refine ⟨Log.empty, ?_, hp, hc, rfl⟩
    show d.script.drop 2 = []
    rw [hcalm, List.drop_nil]
  | stored hrun hb hroom hcall ih =>
    obtain ⟨log, hlog⟩ := ih
    rcases hlog.append hb hroom with ⟨s'', he, ht⟩ | he
    · rw [hcall] at he
      cases he
      exact ⟨_, ht⟩
    · rw [hcall] at he
      cases he
  | refused hrun hb hroom hcall ih =>
    obtain ⟨log, hlog⟩ := ih
    rcases hlog.append hb hroom with ⟨s'', he, ht⟩ | he
    · rw [hcall] at he
      cases he
    · rw [hcall] at he
      cases he
      exact ⟨log, hlog⟩
  | current hrun ih =>
    obtain ⟨log, hlog⟩ := ih
    obtain ⟨s', rfl, hc, hf, k, hk⟩ :=
      Segment.current_clean hlog.clean (Disk.calm_of_script_nil hlog.calm 2)
    refine ⟨log, ?_, hf.path_eq.trans hlog.path_eq, hc, hlog.items_eq⟩
    rw [hk, Disk.skip, hlog.calm, List.drop_nil]
  | @advance s recs hrun ih =>
    obtain ⟨log, hlog⟩ := ih
    obtain ⟨s', he, hc, hf, k, hk⟩ :=
      Segment.advance_clean hlog.clean (Disk.calm_of_script_nil hlog.calm 3)
    have hfinal : final (Segment.advance s) = s' := by
      rw [he]; split <;> rfl
    refine ⟨log.next, ?_, ?_, ?_, ?_⟩
    · rw [hfinal, hk, hlog.calm, List.drop_nil]
    · rw [hfinal, hf.path_eq, hlog.path_eq]
    · rw [hfinal]; exact hc
    · rw [Log.next_items, hlog.items_eq]
  | tick hrun t ih =>
    obtain ⟨log, hlog⟩ := ih
    exact ⟨log, hlog.calm, hlog.path_eq,
      ⟨hlog.clean.toHolds.congr rfl, hlog.clean.cur_eq, hlog.clean.nonempty⟩, hlog.items_eq⟩

/-- **What is on disk, and what a reopen finds.**  After any run the file is the appended slices in
    order, each behind its length, and a footer that is `pos`; `pos` is where record `k` begins;
    `size` is the length of the file.  `newSegment` on that file finds the same `size`, `pos` and
    `currentSize` — 0 if everything is read — and the same records to come. -/
theorem segment_recovers_its_file {path : FileName} {s : SegState} {recs : List Bytes}
    (h : SegmentRun path s recs) :
    ∃ k f, k ≤ recs.length ∧ s.disk.file? path = some f ∧
      f.data = frames 8 recs ++ beBytes 8 s.seg.pos.toNat ∧
      s.seg.pos = offset 8 recs k ∧ s.seg.pos < 256 ^ 8 ∧ s.seg.size = f.data.length ∧
      unread s.seg s.disk = some (recs.drop k) ∧
      ∀ maxSize, ∃ l d', newSegment path maxSize s.disk = .ok l d' ∧
        l.size = s.seg.size ∧ l.pos = s.seg.pos ∧ l.currentSize = s.seg.currentSize ∧
        (k = recs.length → l.currentSize = 0) ∧ unread l d' = some (recs.drop k) := by
  obtain ⟨log, ht⟩ := h.tracks
  obtain ⟨hcalm, rfl, hc, rfl⟩ := ht
  obtain ⟨t, hfile⟩ := hc.stored
  have hle := offset_le footerSize log.items log.cursor
  have hfits := hc.fits
  refine ⟨log.cursor, _, log.cursor_le, hfile, ?_, hc.pos_eq, ?_, ?_, hc.unread_eq, ?_⟩
  · rw [hc.pos_eq, Int.toNat_natCast]
    rfl
  · rw [hc.pos_eq]
    unfold maxOffset footerSize at *
    omega
  · rw [hc.size_eq, List.length_append, putUint64_length, Nat.cast_add]
    rfl
  · intro maxSize
    obtain ⟨l, k, he, hh, -, -, hcur⟩ := Segment.newSegment_holds maxSize
      log.cursor_le hfile hfits (Disk.calm_of_script_nil hcalm 2)
    refine ⟨l, _, he, ?_, ?_, ?_, ?_, hh.unread_eq⟩
    · rw [hh.size_eq, hc.size_eq]
    · rw [hh.pos_eq, hc.pos_eq]
    · rw [hcur, hc.cur_eq]
    · intro hk
      rw [hcur, currentLen_of_drained hk]
      rfl

/-- Two slices are appended, and the first is read and passed. -/
theorem segmentRun_advanced :
    ∃ s, SegmentRun ['1'] s [[7], [8, 9]] ∧ s.seg.pos = 9 ∧ s.seg.size = 27 ∧
      s.seg.maxSize = 100 ∧ unread s.seg s.disk = some [[8, 9]] := by
  have h0 : SegmentRun ['1'] _ [] := @SegmentRun.start _ Disk.empty _ _ 100 rfl rfl rfl
  have h1 : SegmentRun ['1'] _ ([] ++ [[7]]) := .stored h0 (by decide) (fun _ => by decide) rfl
  have h2 : SegmentRun ['1'] _ ([] ++ [[7]] ++ [[8, 9]]) :=
    .stored h1 (by decide) (fun _ => by decide) rfl
  exact ⟨_, h2.current.advance, by decide +kernel, by decide +kernel, by decide +kernel,
    by decide +kernel⟩

/-- The footer has where the second record begins, and a reopen finds it. -/
theorem segment_recovers_its_file_advanced : ∃ s f l d', SegmentRun ['1'] s [[7], [8, 9]] ∧
    s.disk.file? ['1'] = some f ∧ f.data = frames 8 [[7], [8, 9]] ++ beBytes 8 9 ∧
    newSegment ['1'] 100 s.disk = .ok l d' ∧ l.pos = 9 ∧ unread l d' = some [[8, 9]] := by
  obtain ⟨s, hrun, hpos, -, -, hunread⟩ := segmentRun_advanced
  obtain ⟨k, f, -, hf, hdata, -, -, -, hrest, hreopen⟩ := segment_recovers_its_file hrun
  obtain ⟨l, d', hnew, -, hposl, -, -, hunreadl⟩ := hreopen 100
  rw [hpos] at hdata hposl
  exact ⟨s, f, l, d', hrun, hf, hdata, hnew, hposl, hunreadl.trans (hrest.symm.trans hunread)⟩

end InfluxCluster.HH
