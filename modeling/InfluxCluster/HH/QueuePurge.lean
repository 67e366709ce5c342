/-
  `PurgeOlderThan` (`hh/queue.go`): the old segments at the front are dropped.

  THE LOOP looks at the time of the first segment's file.  A file that is not older than the cutoff
  ends it.  An older one is dropped with its segment.  When it is the last one, a NEW segment is put
  behind it first, so that the list of segments is never empty; the next round looks at the new file.

  So the length of the list is no measure: from one segment to one segment the loop has gained
  nothing but the time of a new file.  It ends if that is not older than the cutoff either, that is,
  if the cutoff is not in the future (`purgeLoop_purged`, by induction on the list).

  What the loop needs of the segments is little: they have open files of their own in the directory
  (`Attached`), and there is a free name for a new one when only one is left (`Renewable`).  What the
  files hold does not matter.

  `l.tail` is NOT looked at, and NOT set.  That is for `QueueRuns`.
-/
import InfluxCluster.HH.QueueShape
import Mathlib.Data.List.TakeWhile

namespace InfluxCluster.HH

open InfluxCluster.Lib

/-! ## Old segments -/

/-- The file of the segment was modified before the cutoff. -/
def QState.older (s : QState) (cutoff : Time) (p : Ptr) : Bool :=
  (s.disk.file? (s.heap p).path).any fun f => f.modTime < cutoff

/-- What is left of the list without the longest prefix of old segments. -/
def QState.survivors (s : QState) (cutoff : Time) : List Ptr :=
  s.q.segments.dropWhile (s.older cutoff)

section Rounds

variable {s : QState} {cutoff : Time} {p q : Ptr} {ps : List Ptr} {fuel : Nat}

theorem older_congr {s' : QState} (hh : s'.heap p = s.heap p)
    (hd : s'.disk.entries.lookup (s.heap p).path = s.disk.entries.lookup (s.heap p).path) :
    s'.older cutoff p = s.older cutoff p := by
  rw [QState.older, QState.older, hh, Disk.file?_congr hd]

theorem dropWhile_congr {f g : Ptr → Bool} (h : ∀ r ∈ ps, f r = g r) :
    ps.dropWhile f = ps.dropWhile g := by
  induction ps with
  | nil => rfl
  | cons r ps ih =>
    rw [List.dropWhile_cons, List.dropWhile_cons, h r List.mem_cons_self,
      ih fun r' hr' => h r' (List.mem_cons_of_mem r hr')]

/-- A segment that is not old is not dropped. -/
theorem mem_survivors_of_not_older (hp : p ∈ s.q.segments) (hyoung : s.older cutoff p = false) :
    p ∈ s.survivors cutoff := by
  rw [← List.takeWhile_append_dropWhile (p := s.older cutoff) (l := s.q.segments),
    List.mem_append] at hp
  rcases hp with hp | hp
  · rw [List.mem_takeWhile_imp hp] at hyoung
    cases hyoung
  · exact hp

/-! ## The rounds of the loop -/

/-- The time that a round looks at. -/
theorem Attached.lastModified (h : Attached s) (hp : p ∈ s.q.segments) (cutoff : Time) :
    ∃ mod, call p Segment.lastModified s = .ok mod s ∧ (mod < cutoff ↔ s.older cutoff p = true) := by
  obtain ⟨off, ho⟩ := h.handle p hp
  obtain ⟨f, hf⟩ := h.stored p hp
  have hseg : Segment.lastModified { seg := s.heap p, disk := s.disk }
      = .ok f.modTime { seg := s.heap p, disk := s.disk } := by
    rw [Segment.lastModified]
    dsimp only
    rw [ho]
    dsimp only
    rw [hf]
  refine ⟨f.modTime, ?_, ?_⟩
  · rw [call_ok hseg, QState.put, Function.update_eq_self]
  · rw [QState.older, hf, Option.any_some, decide_eq_true_eq]

/-- A round, up to the comparison. -/
theorem Attached.purgeLoop_succ (h : Attached s) (hsegs : s.q.segments = p :: ps) :
    Queue.purgeLoop cutoff (fuel + 1) s = (if s.older cutoff p = true then do
      if s.q.segments.length = 1 then
        let _ ← Queue.addSegment
      Queue.trimHead
      Queue.purgeLoop cutoff fuel else pure ()) s := by
  have hp : p ∈ s.q.segments := by
    rw [hsegs]
    exact List.mem_cons_self
  have hderef : deref s.q.head s = .ok p s := by
    rw [h.head_eq, hsegs]
    rfl
  obtain ⟨mod, hmod, hiff⟩ := h.lastModified hp cutoff
  rw [Queue.purgeLoop, bind_ok (self_run s), bind_ok hderef, bind_ok hmod]
  by_cases hold : s.older cutoff p = true
  · rw [if_pos hold, if_pos (hiff.mpr hold)]
  · rw [if_neg hold, if_neg (fun hlt => hold (hiff.mp hlt))]

/-- The first segment is not old: the loop ends. -/
theorem Attached.purgeLoop_young (h : Attached s) (hsegs : s.q.segments = p :: ps)
    (hyoung : s.older cutoff p = false) : Queue.purgeLoop cutoff (fuel + 1) s = .ok () s := by
  rw [h.purgeLoop_succ hsegs, hyoung, if_neg Bool.false_ne_true]
  rfl

/-- The first of several segments is old: it is dropped. -/
theorem Attached.purgeLoop_trim (h : Attached s) (hsegs : s.q.segments = p :: q :: ps)
    (hold : s.older cutoff p = true) :
    Queue.purgeLoop cutoff (fuel + 1) s = Queue.purgeLoop cutoff fuel (s.trimmed p) := by
  have hlen : ¬ s.q.segments.length = 1 := by
    rw [hsegs, List.length_cons, List.length_cons]
    omega
  rw [h.purgeLoop_succ hsegs, if_pos hold, if_neg hlen]
  exact bind_ok (h.trimHead hsegs)

/-- The last segment, replaced by a new one. -/
def QState.replaced (s : QState) (p : Ptr) : QState := (s.added s.newSegment s.newDisk).trimmed p

theorem replaced_heap_next (hp : p < s.next) : (s.replaced p).heap s.next = s.newSegment := by
  rw [← added_heap_next (s := s) s.newSegment s.newDisk]
  exact Function.update_of_ne (Nat.ne_of_gt hp) ..

/-- **There is a name for a new segment when one is left**: the directory has no segment 2^64 - 1, or
    no segment files but those of the queue. -/
def QState.Renewable (s : QState) : Prop :=
  Queue.maxSegmentID 0 s.disk.readDir + 1 < 2 ^ 64 ∨
  ∀ name f, s.disk.file? name = some f → parseUint name ≠ none →
    ∃ p ∈ s.q.segments, (s.heap p).path = name

theorem Body.renewable (h : Body s) : s.Renewable := .inr h.owned

/-- With one segment left the next name is free. -/
theorem QState.Renewable.nextFree (h : s.Renewable) (hsegs : s.q.segments = [p]) :
    NextFree s.disk := by
  rcases h with hlt | howned
  · exact nextFree_of_lt hlt
  · refine nextFree_of_single (s.heap p).path fun name f hf hn => ?_
    obtain ⟨r, hr, hrn⟩ := howned name f hf hn
    rw [hsegs, List.mem_singleton] at hr
    rw [← hrn, hr]

/-- Removing a file gives no larger identifier. -/
theorem maxSegmentID_remove_le (d : Disk) (name : FileName) :
    Queue.maxSegmentID 0 (d.remove name).readDir ≤ Queue.maxSegmentID 0 d.readDir := by
  rcases maxSegmentID_mem (d.remove name).readDir 0 with hzero | ⟨⟨other, e⟩, he, hmax⟩
  · rw [hzero]
    exact Nat.zero_le _
  · have hl := Disk.mem_readDir.mp he
    have hne : other ≠ name := by
      rintro rfl
      rw [Disk.remove, AList.lookup_erase] at hl
      cases hl
    rw [lookup_remove_ne d hne] at hl
    exact (le_maxSegmentID d.readDir 0).2 _ (Disk.mem_readDir.mpr hl) _ hmax

/-- Dropping the first of several segments leaves the others as they are. -/
theorem Attached.renewable_trimmed (h : Attached s) (hsegs : s.q.segments = p :: q :: ps)
    (hr : s.Renewable) : (s.trimmed p).Renewable := by
  rcases hr with hlt | howned
  · have hle := maxSegmentID_remove_le s.disk (s.heap p).path
    exact .inl (Nat.lt_of_le_of_lt (Nat.succ_le_succ hle) hlt)
  · refine .inr fun name f hf hn => ?_
    have hne : name ≠ (s.heap p).path := by
      rintro rfl
      rw [show (s.trimmed p).disk = s.disk.remove (s.heap p).path from rfl,
        Disk.file?_remove_self] at hf
      cases hf
    have hold : s.disk.file? name = some f := by
      rw [← hf]
      exact (Disk.file?_remove_ne _ hne).symm
    obtain ⟨r, hr, hrn⟩ := howned name f hold hn
    rw [hsegs] at hr
    rcases List.mem_cons.mp hr with rfl | hr
    · exact absurd hrn.symm hne
    · exact ⟨r, by rw [trimmed_segments hsegs]; exact hr,
        by rw [(h.trimmed_same hsegs hr).2.1, hrn]⟩

/-- The new segment, and nothing but it, is there. -/
theorem Attached.replaced (h : Attached s) (hfree : NextFree s.disk) (hsegs : s.q.segments = [p]) :
    Queue.trimHead (s.added s.newSegment s.newDisk) = .ok () (s.replaced p) ∧
      Attached (s.replaced p) ∧ (s.replaced p).q.segments = [s.next] ∧
      (s.replaced p).disk.file? (nextPath s.disk)
        = some { data := putUint64 0, modTime := s.disk.now } := by
  have hp : p ∈ s.q.segments := by
    rw [hsegs]
    exact List.mem_cons_self
  have hheap : (s.added s.newSegment s.newDisk).heap p = s.heap p :=
    added_heap_of_lt _ _ (h.fresh p hp)
  obtain ⟨off, ho⟩ := h.handle p hp
  obtain ⟨f, hf⟩ := h.stored p hp
  have hpath : nextPath s.disk ≠ (s.heap p).path := by
    intro he
    rw [← he, hfree] at hf
    cases hf
  have hrest : (s.replaced p).q.segments = [s.next] := by
    show (s.q.segments ++ [s.next]).tail = _
    rw [hsegs]
    rfl
  have hnew := replaced_heap_next (h.fresh p hp)
  have hfile : (s.replaced p).disk.file? (nextPath s.disk)
      = some { data := putUint64 0, modTime := s.disk.now } := by
    show (s.newDisk.remove ((s.added s.newSegment s.newDisk).heap p).path).file? _ = _
    rw [hheap, Disk.file?_remove_ne _ hpath]
    exact Disk.file?_put_self _ _ _
  refine ⟨trimHead_eq (f := f) ?_ ?_ (by rw [hheap]; exact ho) ?_, ?_, hrest, hfile⟩
  · show 1 < (s.q.segments ++ [s.next]).length
    rw [hsegs]
    exact Nat.le_refl 2
  · show s.q.head = some p
    rw [h.head_eq, hsegs]
    rfl
  · rw [hheap, ← hf]
    exact Disk.file?_congr (lookup_put_ne _ _ hpath.symm)
  refine ⟨fun r hr => ?_, fun r hr => ?_, ?_, fun r hr => ?_, ?_, rfl⟩
  · rw [hrest, List.mem_singleton] at hr
    rw [hr, hnew]
    exact ⟨8, rfl⟩
  · rw [hrest, List.mem_singleton] at hr
    rw [hr, hnew]
    exact ⟨_, hfile⟩
  · rw [hrest]
    exact List.nodup_singleton _
  · rw [hrest, List.mem_singleton] at hr
    rw [hr]
    exact Nat.lt_succ_self _
  · rw [hrest]
    exact List.cons_ne_nil _ _

/-- The only segment is old: a new one takes its place, if it can be made. -/
theorem Attached.purgeLoop_replace (h : Attached s) (hc : s.disk.script = [])
    (hfree : NextFree s.disk) (hsegs : s.q.segments = [p]) (hold : s.older cutoff p = true)
    (fuel : Nat) :
    (s.Blocked ∧ Queue.purgeLoop cutoff (fuel + 1) s = .error (.os .isDir) s) ∨
      Queue.purgeLoop cutoff (fuel + 1) s = Queue.purgeLoop cutoff fuel (s.replaced p) := by
  have hlen : s.q.segments.length = 1 := by
    rw [hsegs]
    rfl
  rw [h.purgeLoop_succ hsegs, if_pos hold, if_pos hlen]
  by_cases hblocked : s.Blocked
  · exact .inl ⟨hblocked, bind_error (addSegment_blocked hblocked)⟩
  · refine .inr ?_
    rw [show (Queue.addSegment >>= fun _ => Queue.trimHead >>= fun _ => Queue.purgeLoop cutoff fuel) s
        = (Queue.trimHead >>= fun _ => Queue.purgeLoop cutoff fuel) (s.added s.newSegment s.newDisk)
      from bind_ok (addSegment_free hc hfree hblocked)]
    exact bind_ok (h.replaced hfree hsegs).1

end Rounds

/-! ## The whole loop -/

/-- **What a purge is for**: the old segments at the front are gone, closed and with their files;
    the others, and all other files, are as they were.  If none is left there is a new, empty
    one, whose file may have the name of one that is gone. -/
structure Purged (s : QState) (cutoff : Time) (s' : QState) : Prop where
  segments_eq : s'.q.segments
    = if s.survivors cutoff = [] then [s.next] else s.survivors cutoff
  head_eq : s'.q.head = s'.q.segments.head?
  kept : ∀ p ∈ s.survivors cutoff, s'.heap p = s.heap p ∧
    s'.disk.file? (s.heap p).path = s.disk.file? (s.heap p).path
  fresh : s.survivors cutoff = [] → (s'.heap s.next).file ≠ none ∧
    s'.disk.file? (s'.heap s.next).path = some { data := putUint64 0, modTime := s.disk.now } ∧
    unread (s'.heap s.next) s'.disk = some []
  gone : ∀ p ∈ s.q.segments, p ∉ s.survivors cutoff → (s'.heap p).file = none ∧
    (s'.disk.file? (s.heap p).path = none ∨
      s.survivors cutoff = [] ∧ (s'.heap s.next).path = (s.heap p).path)
  others : ∀ name, (∀ p ∈ s.q.segments, (s.heap p).path ≠ name) →
    (s.survivors cutoff = [] → (s'.heap s.next).path ≠ name) →
    s'.disk.file? name = s.disk.file? name
  untouched : ∀ p, p < s.next → p ∉ s.q.segments → s'.heap p = s.heap p

section Loop

variable {s s' : QState} {cutoff : Time} {p q : Ptr} {ps : List Ptr} {fuel : Nat}

/-- Nothing to drop. -/
theorem Attached.purged_young (h : Attached s) (hsegs : s.q.segments = p :: ps)
    (hyoung : s.older cutoff p = false) : Purged s cutoff s := by
  have hall : s.survivors cutoff = s.q.segments := by
    rw [QState.survivors, hsegs,
      List.dropWhile_cons_of_neg (by rw [hyoung]; exact Bool.false_ne_true)]
  have hne : s.survivors cutoff ≠ [] := by
    rw [hall]
    exact h.nonempty
  refine ⟨?_, h.head_eq, fun _ _ => ⟨rfl, rfl⟩, fun hnil => absurd hnil hne, fun r hr hgone => ?_,
    fun _ _ _ => rfl, fun _ _ _ => rfl⟩
  · rw [if_neg hne, hall]
  · rw [hall] at hgone
    exact absurd hr hgone

/-- The first one dropped, and then the rest. -/
theorem Attached.purged_trim (h : Attached s) (hsegs : s.q.segments = p :: q :: ps)
    (hold : s.older cutoff p = true) (hrest : Purged (s.trimmed p) cutoff s') :
    Purged s cutoff s' := by
  have hsame : (s.trimmed p).survivors cutoff = s.survivors cutoff := by
    rw [QState.survivors, QState.survivors, trimmed_segments hsegs, hsegs,
      List.dropWhile_cons_of_pos hold]
    refine dropWhile_congr fun r hr => ?_
    obtain ⟨-, hheap, hfile⟩ := h.trimmed_same hsegs hr
    exact older_congr hheap hfile
  have hsub : ∀ r ∈ s.survivors cutoff, r ∈ q :: ps := fun r hr => by
    rw [QState.survivors, hsegs, List.dropWhile_cons_of_pos hold] at hr
    exact (List.dropWhile_suffix _).subset hr
  have hp : p ∉ q :: ps := by
    have hnd := h.paths.of_map
    rw [hsegs] at hnd
    exact (List.nodup_cons.mp hnd).1
  have hlt : p < s.next := h.fresh p (by rw [hsegs]; exact List.mem_cons_self)
  have hpath : ∀ r ∈ q :: ps, (s.heap r).path ≠ (s.heap p).path := fun r hr he => by
    have hnd := h.paths
    rw [hsegs, List.map_cons] at hnd
    exact (List.nodup_cons.mp hnd).1 (he ▸ List.mem_map_of_mem hr)
  have hpaths : ∀ name, (∀ r ∈ q :: ps, (s.heap r).path ≠ name) →
      ∀ r ∈ (s.trimmed p).q.segments, ((s.trimmed p).heap r).path ≠ name := fun name hname r hr => by
    rw [trimmed_segments hsegs] at hr
    rw [(h.trimmed_same hsegs hr).2.1]
    exact hname r hr
  obtain ⟨hsegments, hhead, hkept, hfresh, hgone, hothers, huntouched⟩ := hrest
  rw [hsame] at hsegments hkept hfresh hgone hothers
  have hnext : (s.trimmed p).next = s.next := rfl
  rw [hnext] at hsegments hfresh hgone hothers huntouched
  refine ⟨hsegments, hhead, fun r hr => ?_, hfresh, fun r hr hnot => ?_, fun name hname hnew => ?_,
    fun r hr hnot => ?_⟩
  · obtain ⟨-, hheap, hfile⟩ := h.trimmed_same hsegs (hsub r hr)
    obtain ⟨hheap', hfile'⟩ := hkept r hr
    rw [hheap] at hheap' hfile'
    exact ⟨hheap', hfile'.trans (Disk.file?_congr hfile)⟩
  · rw [hsegs] at hr
    rcases List.mem_cons.mp hr with rfl | hr
    · -- the one that this round dropped
      refine ⟨?_, ?_⟩
      · rw [huntouched r hlt (by rw [trimmed_segments hsegs]; exact hp)]
        exact trimmed_file s r
      · by_cases hnew : s.survivors cutoff = [] → (s'.heap s.next).path ≠ (s.heap r).path
        · rw [hothers _ (hpaths _ hpath) hnew]
          exact .inl (Disk.file?_remove_self _ _)
        · rw [Classical.not_imp, not_not] at hnew
          exact .inr hnew
    · have hdropped := hgone r (by rw [trimmed_segments hsegs]; exact hr) hnot
      rw [(h.trimmed_same hsegs hr).2.1] at hdropped
      exact hdropped
  · rw [hsegs] at hname
    have hne : name ≠ (s.heap p).path := (hname p List.mem_cons_self).symm
    rw [hothers name (hpaths name fun r hr => hname r (List.mem_cons_of_mem p hr)) hnew]
    exact Disk.file?_remove_ne _ hne
  · rw [hsegs] at hnot
    rw [huntouched r hr (by rw [trimmed_segments hsegs]; exact fun hr => hnot (List.mem_cons_of_mem p hr))]
    refine Function.update_of_ne ?_ ..
    rintro rfl
    exact hnot List.mem_cons_self

/-- The only segment replaced by a new one. -/
theorem Attached.purged_replace (h : Attached s) (hfree : NextFree s.disk)
    (hsegs : s.q.segments = [p]) (hold : s.older cutoff p = true) : Purged s cutoff (s.replaced p) := by
  have hp : p ∈ s.q.segments := by
    rw [hsegs]
    exact List.mem_cons_self
  have hlt := h.fresh p hp
  have hnone : s.survivors cutoff = [] := by
    rw [QState.survivors, hsegs, List.dropWhile_cons_of_pos hold]
    rfl
  obtain ⟨-, -, hrest, hfile⟩ := h.replaced hfree hsegs
  have hnew := replaced_heap_next hlt
  have hheap : (s.added s.newSegment s.newDisk).heap p = s.heap p := added_heap_of_lt _ _ hlt
  refine ⟨?_, rfl, fun r hr => ?_, fun _ => ?_, fun r hr _ => ?_, fun name hname hfresh => ?_,
    fun r hr hnot => ?_⟩
  · rw [if_pos hnone, hrest]
  · rw [hnone] at hr
    cases hr
  · rw [hnew]
    refine ⟨Option.some_ne_none _, hfile, ?_⟩
    rw [unread, show s.newSegment.path = nextPath s.disk from rfl, hfile]
    rfl
  · rw [hsegs, List.mem_singleton] at hr
    rw [hr]
    refine ⟨trimmed_file _ p, .inl ?_⟩
    show (s.newDisk.remove ((s.added s.newSegment s.newDisk).heap p).path).file? _ = none
    rw [hheap]
    exact Disk.file?_remove_self _ _
  · have hne := hfresh hnone
    rw [hnew] at hne
    show (s.newDisk.remove ((s.added s.newSegment s.newDisk).heap p).path).file? _ = _
    rw [hheap, Disk.file?_remove_ne _ (hname p hp).symm]
    exact Disk.file?_congr (lookup_put_ne _ _ (Ne.symm hne))
  · rw [hsegs, List.mem_singleton] at hnot
    rw [← added_heap_of_lt s.newSegment s.newDisk hr]
    exact Function.update_of_ne hnot ..

/-- A new file is not older than a cutoff that is not in the future. -/
theorem Attached.replaced_young (h : Attached s) (hfree : NextFree s.disk)
    (hsegs : s.q.segments = [p]) (hnow : cutoff ≤ s.disk.now) :
    (s.replaced p).older cutoff s.next = false := by
  have hlt := h.fresh p (by rw [hsegs]; exact List.mem_cons_self)
  obtain ⟨-, -, -, hfile⟩ := h.replaced hfree hsegs
  rw [QState.older, replaced_heap_next hlt, show s.newSegment.path = nextPath s.disk from rfl, hfile,
    Option.any_some, decide_eq_false_iff_not]
  exact not_lt.mpr hnow

/-- **The loop ends and has dropped the old segments at the front**, by induction on the list; or
    there is a directory in the way of the new file. -/
theorem purgeLoop_purged (cutoff : Time) (segments : List Ptr) :
    ∀ (fuel : Nat) (s : QState), s.q.segments = segments → Attached s → s.Renewable →
      s.disk.script = [] → cutoff ≤ s.disk.now → segments.length < fuel →
      (∃ s', Queue.purgeLoop cutoff fuel s = .ok () s' ∧ Purged s cutoff s') ∨
        ∃ s', Queue.purgeLoop cutoff fuel s = .error (.os .isDir) s' := by
  induction segments with
  | nil => exact fun _ s hsegs h _ _ _ _ => absurd hsegs h.nonempty
  | cons p ps ih =>
    intro fuel s hsegs h hr hc hnow hfuel
    obtain ⟨fuel, rfl⟩ : ∃ k, fuel = k + 1 := ⟨fuel - 1, by omega⟩
    cases hold : s.older cutoff p with
    | false => exact .inl ⟨s, h.purgeLoop_young hsegs hold, h.purged_young hsegs hold⟩
    | true =>
      rw [List.length_cons] at hfuel
      cases ps with
      | nil =>
        have hfree := hr.nextFree hsegs
        rcases h.purgeLoop_replace hc hfree hsegs hold fuel with ⟨-, he⟩ | he
        · exact .inr ⟨s, he⟩
        · -- the next round ends the loop
          obtain ⟨-, hat, hrest, -⟩ := h.replaced hfree hsegs
          obtain ⟨fuel, rfl⟩ : ∃ k, fuel = k + 1 :=
            ⟨fuel - 1, by rw [List.length_nil] at hfuel; omega⟩
          refine .inl ⟨s.replaced p, ?_, h.purged_replace hfree hsegs hold⟩
          rw [he]
          exact hat.purgeLoop_young hrest (h.replaced_young hfree hsegs hnow)
      | cons q qs =>
        rw [h.purgeLoop_trim hsegs hold]
        rcases ih fuel (s.trimmed p) (trimmed_segments hsegs) (h.trimmed hsegs)
          (h.renewable_trimmed hsegs hr) hc hnow (by omega) with
          ⟨s', he, hpurged⟩ | ⟨s', he⟩
        · exact .inl ⟨s', he, h.purged_trim hsegs hold hpurged⟩
        · exact .inr ⟨s', he⟩

theorem mapM_congr {f g : Ptr → Option (List Bytes)} (h : ∀ r ∈ ps, f r = g r) :
    ps.mapM f = ps.mapM g := by
  induction ps with
  | nil => rfl
  | cons r ps ih =>
    rw [List.mapM_cons, List.mapM_cons, h r List.mem_cons_self,
      ih fun r' hr' => h r' (List.mem_cons_of_mem r hr')]

/-- What is left in the queue is what was left in the surviving segments. -/
theorem Purged.content_eq (h : Purged s cutoff s') : content s'
    = ((s.survivors cutoff).mapM fun p => unread (s.heap p) s.disk).map List.flatten := by
  rw [content, h.segments_eq]
  by_cases hnone : s.survivors cutoff = []
  · rw [if_pos hnone, hnone, List.mapM_cons, (h.fresh hnone).2.2]
    rfl
  · rw [if_neg hnone]
    congr 1
    refine mapM_congr fun r hr => ?_
    obtain ⟨hheap, hfile⟩ := h.kept r hr
    rw [unread, unread, hheap, hfile]

end Loop

/-- **`PurgeOlderThan` ends, and removes exactly the old segments at the front.**  On an open queue,
    with a cutoff that is not later than the time a new file gets, and if no I/O call fails: the
    segments that are left are those behind the longest prefix of old ones, or a new one.  No segment
    is removed that was modified at the cutoff or later.  The records that are left are those of the
    surviving segments, in order.  (`Renewable` holds of every queue whose segment files are all its
    own, as they are after `Open`.) -/
theorem purgeOlderThan_removes_old_prefix (s : QState) (fuel : Nat) (when_ : Time) (h : Attached s)
    (hnext : s.Renewable) (hc : s.disk.script = []) (hnow : Queue.truncateSecond when_ ≤ s.disk.now)
    (hfuel : s.q.segments.length < fuel)
    (hfault : ∀ e s', Queue.purgeOlderThan fuel when_ s ≠ .error (.os e) s') :
    ∃ s', Queue.purgeOlderThan fuel when_ s = .ok () s' ∧
      Purged s (Queue.truncateSecond when_) s' ∧
      (∀ p ∈ s.q.segments, s.older (Queue.truncateSecond when_) p = false → p ∈ s'.q.segments) ∧
      content s' = ((s.survivors (Queue.truncateSecond when_)).mapM fun p =>
        unread (s.heap p) s.disk).map List.flatten := by
  have hrun : Queue.purgeOlderThan fuel when_ s
      = Queue.purgeLoop (Queue.truncateSecond when_) fuel s := by
    have hlen : s.q.segments.length ≠ 0 := fun hz => h.nonempty (List.length_eq_zero_iff.mp hz)
    rw [Queue.purgeOlderThan, bind_ok (self_run s), if_pos hlen]
  rw [hrun] at hfault ⊢
  rcases purgeLoop_purged _ _ fuel s rfl h hnext hc hnow hfuel with ⟨s', he, hpurged⟩ | ⟨s', he⟩
  · refine ⟨s', he, hpurged, fun p hp hyoung => ?_, hpurged.content_eq⟩
    have hmem := mem_survivors_of_not_older hp hyoung
    rw [hpurged.segments_eq, if_neg (List.ne_nil_of_mem hmem)]
    exact hmem
  · exact absurd he (hfault _ s')

/-- Two segments, the second one two seconds younger: it survives. -/
theorem purgeOlderThan_removes_first : ∃ s s', s.q.segments = [0, 1] ∧ content s = some [[1], [2]] ∧
    Queue.purgeOlderThan 3 2000000001 s = .ok () s' ∧ Purged s 2000000000 s' ∧
    s.survivors 2000000000 = [1] ∧ content s' = some [[2]] := by
  set s₁ := final (Queue.openQueue (QState.fresh 1000 17 Disk.empty)) with hs₁
  set s₂ := final (Queue.append [1] s₁) with hs₂
  set s₃ := final (Queue.append [2] { s₂ with disk := s₂.disk.at 2000000000 }) with hs₃
  have hopen : Queue.openQueue (QState.fresh 1000 17 Disk.empty) = .ok () s₁ :=
    eq_ok_of_returned (by decide +kernel)
  have h₁ : Shape s₁ := (shape_of_openQueue rfl hopen).1
  have h₂ : Shape s₂ := (h₁.append (by decide +kernel)).1
  have h₃ : Shape s₃ := ((h₂.tick 2000000000).append (by decide +kernel)).1
  have hrun : Queue.purgeOlderThan 3 2000000001 s₃
      = .ok () (final (Queue.purgeOlderThan 3 2000000001 s₃)) :=
    eq_ok_of_returned (by decide +kernel)
  obtain ⟨s', he, hpurged, -, hcontent⟩ := purgeOlderThan_removes_old_prefix s₃ 3 2000000001
    h₃.toBody.attached h₃.toBody.renewable h₃.calm (by decide +kernel) (by decide +kernel)
    (fun e s' he => by cases hrun.symm.trans he)
  have hleft : s₃.survivors 2000000000 = [1] := by decide +kernel
  refine ⟨s₃, s', by decide +kernel, by decide +kernel, he, hpurged, hleft, ?_⟩
  rw [hcontent]
  decide +kernel

end InfluxCluster.HH
