/-
  The limits of a queue (`hh/queue.go`, `Append` and `SetMaxSegmentSize`): how large it gets, and
  what a refused `Append` leaves behind.

  THE CHECKS compare the size so far plus the length of the slice with the limit, for the queue
  (`maxSize`) and for the segment.  But a record has its length in front, eight bytes, and a new
  segment has a footer, eight more.  So both limits can be passed by what the checks leave out, and
  they are kept EXACTLY IF every step leaves room for it (`disk_bound_iff`).

  A `Ledger` is a run with its books: for each file the segment limit under which it last grew.
  What it says is read off the directory, not off the segments.

  A REFUSED `Append` changes nothing if it is the queue that is full.  If it is the segment, a new
  one has been made and is the tail by then, and it stays (`refused_append_unchanged_iff`).
-/
import InfluxCluster.HH.QueueRuns
import Mathlib.Algebra.BigOperators.Ring.Finset

namespace InfluxCluster.HH

open InfluxCluster.Lib

/-! ## Files and segments -/

/-- The length of the file of that name; 0 if there is none. -/
def fileSize (d : Disk) (name : FileName) : Nat := ((d.file? name).map fun f => f.data.length).getD 0

/-- The total size of the segment files. -/
def diskBytes (d : Disk) : Nat := ((segmentNames d.readDir).map (fileSize d)).sum

/-- No segment file is larger than the limit that it has in the books. -/
def Within (limits : FileName → Int) (d : Disk) : Prop :=
  ∀ name ∈ segmentNames d.readDir, fileSize d name ≤ limits name

section Sizes

variable {s s' : QState} {p : Ptr} {limits : FileName → Int}

/-- A segment knows the size of its file. -/
theorem Members.fileSize_path (h : Members s) (hp : p ∈ s.q.segments) :
    (fileSize s.disk (s.heap p).path : Int) = (s.heap p).size := by
  obtain ⟨f, hf, hsize, -⟩ := (h.sized p hp).stored
  rw [fileSize, hf, hsize]
  rfl

/-- The segment files are the files of the segments. -/
theorem Members.perm_segmentNames (h : Members s) :
    (s.q.segments.map fun p => (s.heap p).path).Perm (segmentNames s.disk.readDir) :=
  HH.perm_segmentNames h.paths (fun p hp => (h.sized p hp).stored.imp fun _ hf => hf.1) h.numeric
    h.owned

/-- **`diskUsage` is the size of the files.** -/
theorem Members.diskBytes_eq (h : Members s) : (diskBytes s.disk : Int) = s.usage := by
  have hperm := h.perm_segmentNames.map fun name => (fileSize s.disk name : Int)
  have hsizes : (s.q.segments.map fun p => (s.heap p).diskUsage)
      = (s.q.segments.map fun p => (s.heap p).path).map fun name => (fileSize s.disk name : Int) := by
    rw [List.map_map]
    exact List.map_congr_left fun p hp => (h.fileSize_path hp).symm
  rw [QState.usage, hsizes, hperm.sum_eq, diskBytes, Nat.cast_list_sum, List.map_map]
  rfl

/-- The limits, by segments instead of files. -/
theorem Members.within_iff (h : Members s) :
    Within limits s.disk ↔ ∀ p ∈ s.q.segments, (s.heap p).size ≤ limits (s.heap p).path := by
  constructor
  · intro hw p hp
    rw [← h.fileSize_path hp]
    exact hw _ (h.perm_segmentNames.subset (List.mem_map_of_mem hp))
  · intro hw name hname
    obtain ⟨p, hp, rfl⟩ := List.mem_map.mp (h.perm_segmentNames.symm.subset hname)
    rw [h.fileSize_path hp]
    exact hw p hp

end Sizes

/-! ## The books -/

/-- A run and its books. -/
structure Ledger where
  s : QState
  /-- For each file, the segment limit under which it last grew. -/
  limits : FileName → Int
  /-- The last call was an `Append` that returned nil. -/
  stored : Bool

/-- A call has led to `s'`. -/
def Ledger.enter (l : Ledger) (s' : QState) (stored : Bool) : Ledger where
  s := s'
  limits name :=
    if fileSize l.s.disk name < fileSize s'.disk name then s'.q.maxSegmentSize else l.limits name
  stored := stored

/-- The clock before a call, which meets no fault. -/
def Ledger.facing (l : Ledger) (now : Time) : Ledger := { l with s := l.s.facing now [] }

/-- A call of `Append`, `Current`, `Advance` or `SetMaxSegmentSize`; these are the calls of the runs
    here.  An I/O fault ends the run, and so does a new segment whose name is taken. -/
def Ledger.call (l : Ledger) : Method → Option Ledger
  | .append b =>
    if l.s.Roomy b then
      match Queue.append b l.s with
      | .ok _ s' => some (l.enter s' true)
      | .error (.os _) _ => none
      | .error _ s' => some (l.enter s' false)
    else none
  | .current => some (l.enter (final (Queue.current l.s)) false)
  | .advance => some (l.enter (final (Queue.advance l.s)) false)
  | .setMaxSegmentSize size =>
    if l.s.Resizable size then
      match Queue.setMaxSegmentSize size l.s with
      | .ok _ s' => some (l.enter s' false)
      | .error _ _ => none
    else none
  | .openQueue | .purgeOlderThan _ _ => none

/-- A call at its time. -/
def Ledger.step (l : Ledger) (c : Time × Method) : Option Ledger := (l.facing c.1).call c.2

/-- **The bounds**: after an `Append` that returned nil the segment files have at most `m` bytes, and
    no segment file is larger than the limit under which it last grew. -/
def Ledger.Bounded (m : Int) (l : Ledger) : Prop :=
  (l.stored = true → diskBytes l.s.disk ≤ m) ∧ Within l.limits l.s.disk

/-- **The call leaves room** for what the checks leave out: eight bytes for the length of a record,
    and eight for the footer of a new segment. -/
def LeavesRoom (s : QState) : Method → Prop
  | .append b => ∀ p ∈ s.q.tail, s.usage + b.length ≤ s.q.maxSize →
    if (s.heap p).size + b.length ≤ s.q.maxSegmentSize then
      s.usage + b.length + 8 ≤ s.q.maxSize ∧ (s.heap p).size + b.length + 8 ≤ s.q.maxSegmentSize
    else if footerSize + b.length ≤ s.q.maxSegmentSize then
      s.usage + b.length + 16 ≤ s.q.maxSize ∧ (b.length : Int) + 16 ≤ s.q.maxSegmentSize
    else footerSize ≤ s.q.maxSegmentSize
  | .setMaxSegmentSize size => ∀ p ∈ s.q.tail, size ≤ (s.heap p).size → footerSize ≤ size
  | .current | .advance | .openQueue | .purgeOlderThan _ _ => True

instance (m : Int) (l : Ledger) : Decidable (l.Bounded m) :=
  inferInstanceAs (Decidable ((_ → _) ∧ ∀ name ∈ segmentNames l.s.disk.readDir, _))

instance (s : QState) (m : Method) : Decidable (LeavesRoom s m) :=
  match m with
  | .append _ => inferInstanceAs (Decidable (∀ p ∈ s.q.tail, _))
  | .setMaxSegmentSize _ => inferInstanceAs (Decidable (∀ p ∈ s.q.tail, _))
  | .current | .advance | .openQueue | .purgeOlderThan _ _ => isTrue trivial

/-! ## What a call does to the files -/

/-- The segments of `s'` are segments of `s`, with the same files. -/
def NoneGrew (s s' : QState) : Prop :=
  ∀ q ∈ s'.q.segments, q ∈ s.q.segments ∧ (s'.heap q).path = (s.heap q).path ∧
    (s'.heap q).size = (s.heap q).size

/-- No file grows in two steps if it grows in neither. -/
theorem NoneGrew.trans {s t u : QState} (h : NoneGrew s t) (h' : NoneGrew t u) : NoneGrew s u :=
  fun q hq => by
    obtain ⟨hmem, hpath, hsize⟩ := h' q hq
    obtain ⟨hmem', hpath', hsize'⟩ := h q hmem
    exact ⟨hmem', hpath.trans hpath', hsize.trans hsize'⟩

/-- One segment of `s'` is larger than its file was in `s`, and the others are as they were. -/
structure OneGrew (s s' : QState) (p : Ptr) : Prop where
  mem : p ∈ s'.q.segments
  grew : fileSize s.disk (s'.heap p).path < (s'.heap p).size
  others : ∀ q ∈ s'.q.segments, q ≠ p → q ∈ s.q.segments ∧ (s'.heap q).path = (s.heap q).path ∧
    (s'.heap q).size = (s.heap q).size

section Books

variable {l : Ledger} {s' : QState} {p : Ptr} {m : Int} {stored : Bool}

/-- A file that has its length has its limit. -/
theorem enter_limits_same (h : Members l.s) (h' : Members s') {q : Ptr} (hq : q ∈ l.s.q.segments)
    (hq' : q ∈ s'.q.segments) (hpath : (s'.heap q).path = (l.s.heap q).path)
    (hsize : (s'.heap q).size = (l.s.heap q).size) :
    (l.enter s' stored).limits (s'.heap q).path = l.limits (l.s.heap q).path := by
  have hold := h.fileSize_path hq
  have hnew := h'.fileSize_path hq'
  rw [← hpath] at hold
  show (if _ < _ then _ else _) = _
  rw [if_neg (by omega), hpath]

/-- Where no file grows the limits hold on. -/
theorem within_of_noneGrew (h : Members l.s) (h' : Members s') (hk : NoneGrew l.s s')
    (hw : Within l.limits l.s.disk) : Within (l.enter s' stored).limits s'.disk := by
  rw [h.within_iff] at hw
  rw [h'.within_iff]
  intro q hq
  obtain ⟨hmem, hpath, hsize⟩ := hk q hq
  rw [enter_limits_same h h' hmem hq hpath hsize, hsize]
  exact hw q hmem

/-- **The file that grew is within its limit exactly if it is within the one in force.** -/
theorem within_iff_of_oneGrew (h : Members l.s) (h' : Members s') (hg : OneGrew l.s s' p)
    (hw : Within l.limits l.s.disk) :
    Within (l.enter s' stored).limits s'.disk ↔ (s'.heap p).size ≤ s'.q.maxSegmentSize := by
  have hlimit : (l.enter s' stored).limits (s'.heap p).path = s'.q.maxSegmentSize := by
    have hnew := h'.fileSize_path hg.mem
    have hgrew := hg.grew
    show (if _ < _ then _ else _) = _
    rw [if_pos (by omega)]
  rw [h.within_iff] at hw
  rw [h'.within_iff]
  constructor
  · intro hw'
    rw [← hlimit]
    exact hw' p hg.mem
  · intro hle q hq
    by_cases hqp : q = p
    · rw [hqp, hlimit]
      exact hle
    · obtain ⟨hmem, hpath, hsize⟩ := hg.others q hq hqp
      rw [enter_limits_same h h' hmem hq hpath hsize, hsize]
      exact hw q hmem

end Books

/-! ## What the limits are -/

/-- An open queue of maximum size `m` whose tail is the last segment, and whose segments have the
    limit of the queue. -/
structure Metered (m : Int) (s : QState) : Prop extends Shape s where
  tail_eq : s.q.tail = s.q.segments.getLast?
  limit : ∀ p ∈ s.q.segments, (s.heap p).maxSize = s.q.maxSegmentSize
  total : s.q.maxSize = m

section Metered

variable {s : QState} {m : Int} {p : Ptr} {b : Bytes} {t : SegState}

/-- Faults and time do not count. -/
theorem Metered.facing (h : Metered m s) (now : Time) : Metered m (s.facing now []) :=
  ⟨h.toShape.facing now, h.tail_eq, h.limit, h.total⟩

/-- There is a last segment, the one that is written to. -/
theorem Metered.exists_tail (h : Metered m s) : ∃ ps p, s.q.segments = ps ++ [p] ∧
    s.q.tail = some p ∧ s.q.segments.getLast? = some p := by
  have hlast := List.getLast?_eq_some_getLast h.nonempty
  exact ⟨_, _, (List.dropLast_append_getLast h.nonempty).symm, h.tail_eq.trans hlast, hlast⟩

/-- A method of one segment leaves the limits as they are. -/
theorem Metered.put (h : Metered m s) (hs : Shape (s.put p t))
    (hf : Frame { seg := s.heap p, disk := s.disk } t) : Metered m (s.put p t) := by
  refine ⟨hs, h.tail_eq, fun q hq => ?_, h.total⟩
  by_cases hqp : q = p
  · rw [hqp, put_heap_self]
    exact hf.maxSize_eq.trans (h.limit p (hqp ▸ hq))
  · rw [put_heap_ne s t hqp]
    exact h.limit q hq

/-- A new segment has the limit of the queue. -/
theorem Metered.rolled (h : Metered m s) (hfree : NextFree s.disk) :
    Metered m (s.rolled s.newSegment s.newDisk) := by
  refine ⟨h.toBody.rolled hfree, List.getLast?_concat.symm, fun q hq => ?_, h.total⟩
  rcases List.mem_append.mp hq with hq | hq
  · rw [rolled_heap_of_lt _ _ (h.fresh q hq)]
    exact h.limit q hq
  · rw [List.mem_singleton.mp hq, rolled_heap_next]
    rfl

/-- A head that is trimmed takes its bytes with it. -/
theorem Metered.trimmed {q : Ptr} {ps : List Ptr} (h : Metered m s)
    (hsegs : s.q.segments = p :: q :: ps) : Metered m (s.trimmed p) := by
  have hb := (h.toBody.trimmed hsegs).2
  refine ⟨⟨hb, h.tail.trimmed hsegs⟩, ?_, fun r hr => ?_, h.total⟩
  · show s.q.tail = s.q.segments.tail.getLast?
    rw [h.tail_eq, hsegs, List.tail_cons, List.getLast?_cons_cons]
  · rw [trimmed_segments hsegs] at hr
    obtain ⟨hmem, hheap, -⟩ := h.toBody.attached.trimmed_same hsegs hr
    rw [hheap]
    exact h.limit r hmem

/-- Another limit for segments changes no size. -/
theorem Metered.resized (h : Metered m s) (size : Int) : Metered m (s.resized size) := by
  refine ⟨?_, h.tail_eq, fun q hq => ?_, h.total⟩
  · obtain ⟨p, htail, hlt, hcase⟩ := h.tail
    refine ⟨h.toBody.limited size s.q.segments size, p, htail, hlt, ?_⟩
    exact hcase.imp_right fun hclosed => (limited_file s size s.q.segments p).trans hclosed
  · show ((s.limited size s.q.segments).heap q).maxSize = size
    simp only [QState.limited]
    rw [if_pos (show q ∈ s.q.segments from hq)]
    rfl

/-! ## How the size of the queue changes -/

/-- The usage is that of the last segment and of those before it. -/
theorem usage_append (s : QState) {ps : List Ptr} (hsegs : s.q.segments = ps ++ [p]) :
    s.usage = (ps.map fun q => (s.heap q).size).sum + (s.heap p).size := by
  rw [QState.usage, hsegs, List.map_append, List.sum_append]
  simp [Segment.diskUsage]

/-- The tail has grown. -/
theorem Metered.usage_put (h : Metered m s) (htail : s.q.tail = some p) :
    (s.put p t).usage = s.usage - (s.heap p).size + t.seg.size := by
  obtain ⟨ps, q, hsegs, hq, -⟩ := h.exists_tail
  cases htail.symm.trans hq
  have hnd := h.nodup
  rw [hsegs] at hnd
  have hsame : ∀ r ∈ ps, ((s.put p t).heap r).size = (s.heap r).size := fun r hr => by
    have hne : r ≠ p := fun he =>
      (List.nodup_append.mp hnd).2.2 r hr p (List.mem_singleton_self p) he
    rw [put_heap_ne s t hne]
  rw [usage_append (s.put p t) hsegs, usage_append s hsegs, put_heap_self,
    List.map_congr_left hsame]
  omega

/-- There is one more segment. -/
theorem Metered.usage_rolled_put (h : Metered m s) :
    ((s.rolled s.newSegment s.newDisk).put s.next t).usage = s.usage + t.seg.size := by
  have hsame : ∀ r ∈ s.q.segments,
      (((s.rolled s.newSegment s.newDisk).put s.next t).heap r).size = (s.heap r).size := fun r hr => by
    rw [put_heap_ne _ t (Nat.ne_of_lt (h.fresh r hr)), rolled_heap_of_lt _ _ (h.fresh r hr)]
  rw [usage_append ((s.rolled s.newSegment s.newDisk).put s.next t) rfl, put_heap_self,
    List.map_congr_left hsame]
  rfl

/-! ## The files that grow -/

/-- A free name has no file yet. -/
theorem fileSize_nextPath (hfree : NextFree s.disk) : fileSize s.disk (nextPath s.disk) = 0 := by
  rw [fileSize, hfree]
  rfl

/-- An append to the tail grows the tail's file only. -/
theorem Shape.oneGrew_put (h : Shape s) (hp : p ∈ s.q.segments)
    (hf : Frame { seg := s.heap p, disk := s.disk } t) (hlt : (s.heap p).size < t.seg.size) :
    OneGrew s (s.put p t) p := by
  refine ⟨hp, ?_, fun q hq hqp => ?_⟩
  · rw [put_path hf, put_heap_self, h.fileSize_path hp]
    exact hlt
  · rw [put_heap_ne s t hqp]
    exact ⟨hq, rfl, rfl⟩

/-- A new segment grows its own file only. -/
theorem Shape.oneGrew_rolled (h : Shape s) (hfree : NextFree s.disk) :
    OneGrew s (s.rolled s.newSegment s.newDisk) s.next := by
  refine ⟨List.mem_append_right _ (List.mem_singleton_self _), ?_, fun q hq hqp => ?_⟩
  · rw [rolled_heap_next, show s.newSegment.path = nextPath s.disk from rfl,
      fileSize_nextPath hfree]
    exact (by decide : ((0 : Nat) : Int) < footerSize)
  · rcases List.mem_append.mp hq with hq | hq
    · rw [rolled_heap_of_lt _ _ (h.fresh q hq)]
      exact ⟨hq, rfl, rfl⟩
    · exact absurd (List.mem_singleton.mp hq) hqp

/-- So does an append to a new segment. -/
theorem Shape.oneGrew_rolled_put (h : Shape s) (hfree : NextFree s.disk)
    (hf : Frame { seg := s.newSegment, disk := s.newDisk } t) (hlt : 0 < t.seg.size) :
    OneGrew s ((s.rolled s.newSegment s.newDisk).put s.next t) s.next := by
  have hg := h.oneGrew_rolled hfree
  refine ⟨hg.mem, ?_, fun q hq hqp => ?_⟩
  · rw [put_heap_self, show t.seg.path = nextPath s.disk from hf.path_eq, fileSize_nextPath hfree]
    exact hlt
  · rw [put_heap_ne _ t hqp]
    exact hg.others q hq hqp

end Metered

/-! ## One step -/

section Step

variable {l l' : Ledger} {m : Int} {b : Bytes}

/-- A step that lets no file grow keeps the bounds, unless it is a stored `Append`. -/
theorem bounded_of_noneGrew {s' : QState} (h : Members l.s) (h' : Members s')
    (hk : NoneGrew l.s s') (hb : l.Bounded m) : (l.enter s' false).Bounded m :=
  ⟨fun hf => absurd hf Bool.false_ne_true, within_of_noneGrew h h' hk hb.2⟩

/-- A step that lets one file grow, and stores nothing. -/
theorem bounded_iff_of_oneGrew {s' : QState} {p : Ptr} (h : Members l.s) (h' : Members s')
    (hg : OneGrew l.s s' p) (hb : l.Bounded m) :
    (l.enter s' false).Bounded m ↔ (s'.heap p).size ≤ s'.q.maxSegmentSize := by
  have hw : Within (l.enter s' false).limits s'.disk ↔ _ := within_iff_of_oneGrew h h' hg hb.2
  rw [← hw]
  exact and_iff_right fun hf => absurd hf Bool.false_ne_true

/-- A step that stores a slice. -/
theorem bounded_iff_of_stored {s' : QState} {p : Ptr} (h : Members l.s) (h' : Members s')
    (hg : OneGrew l.s s' p) (hb : l.Bounded m) :
    (l.enter s' true).Bounded m ↔ s'.usage ≤ m ∧ (s'.heap p).size ≤ s'.q.maxSegmentSize := by
  rw [Ledger.Bounded, ← h'.diskBytes_eq]
  refine and_congr ?_ (within_iff_of_oneGrew h h' hg hb.2)
  exact ⟨fun hle => hle rfl, fun hle _ => hle⟩

/-- What an append must leave room for, where it goes. -/
theorem leavesRoom_append {s : QState} {p : Ptr} (htail : s.q.tail = some p)
    (hq : s.usage + b.length ≤ s.q.maxSize) : LeavesRoom s (.append b) ↔
    if (s.heap p).size + b.length ≤ s.q.maxSegmentSize then
      s.usage + b.length + 8 ≤ s.q.maxSize ∧ (s.heap p).size + b.length + 8 ≤ s.q.maxSegmentSize
    else if footerSize + b.length ≤ s.q.maxSegmentSize then
      s.usage + b.length + 16 ≤ s.q.maxSize ∧ (b.length : Int) + 16 ≤ s.q.maxSegmentSize
    else footerSize ≤ s.q.maxSegmentSize := by
  rw [LeavesRoom, htail]
  exact ⟨fun hroom => hroom p rfl hq, fun hroom q hq' _ => by cases hq'; exact hroom⟩

/-- **`Append`**, case by case. -/
theorem Metered.call_append (h : Metered m l.s) (hcall : l.call (.append b) = some l') :
    Metered m l'.s ∧ (l.Bounded m → (l'.Bounded m ↔ LeavesRoom l.s (.append b))) := by
  rw [Ledger.call] at hcall
  split at hcall
  case isFalse => cases hcall
  case isTrue hroom =>
    obtain ⟨ps, p, hsegs, htail, hlast⟩ := h.exists_tail
    have hp : p ∈ l.s.q.segments := List.mem_of_getLast? hlast
    have hlimit := h.limit p hp
    rcases h.append_cases htail hlast hroom with ⟨hq, he⟩ | ⟨hq, hfit, t, he, hshape, hf, hsize⟩ |
      ⟨hq, hfull, hfree, hfit, t, he, hshape, hf, hsize⟩ | ⟨hq, hfull, hfree, hfull', he⟩ | ⟨-, he⟩
    · -- the queue is full
      rw [he] at hcall
      cases hcall
      refine ⟨h, fun hb => iff_of_true ?_ ?_⟩
      · exact bounded_of_noneGrew h.toMembers h.toMembers (fun q hq => ⟨hq, rfl, rfl⟩) hb
      · rw [LeavesRoom]
        exact fun q _ hle => absurd hq (by omega)
    · -- the tail takes the slice
      rw [he] at hcall
      cases hcall
      have hg := h.oneGrew_put hp hf (by omega)
      refine ⟨h.put hshape hf, fun hb => ?_⟩
      rw [hlimit] at hfit
      rw [bounded_iff_of_stored h.toMembers hshape.toMembers hg hb, h.usage_put htail,
        put_heap_self, leavesRoom_append htail hq, if_pos hfit, hsize, h.total]
      exact and_congr (by omega) (by show _ ≤ l.s.q.maxSegmentSize ↔ _; omega)
    · -- a new segment takes it
      rw [he] at hcall
      cases hcall
      have hg := h.oneGrew_rolled_put hfree hf (by rw [hsize]; omega)
      refine ⟨(h.rolled hfree).put hshape (by rw [rolled_heap_next]; exact hf), fun hb => ?_⟩
      rw [hlimit] at hfull
      rw [bounded_iff_of_stored h.toMembers hshape.toMembers hg hb, h.usage_rolled_put,
        put_heap_self, leavesRoom_append htail hq, if_neg (by omega), if_pos hfit, hsize, h.total]
      unfold footerSize
      exact and_congr (by omega) (by show _ ≤ l.s.q.maxSegmentSize ↔ _; omega)
    · -- the new segment does not take it either
      rw [he] at hcall
      cases hcall
      have hg := h.oneGrew_rolled hfree
      have hm := h.rolled hfree
      refine ⟨hm, fun hb => ?_⟩
      rw [hlimit] at hfull
      rw [bounded_iff_of_oneGrew h.toMembers hm.toMembers hg hb, rolled_heap_next,
        leavesRoom_append htail hq, if_neg (by omega), if_neg (by omega)]
      rfl
    · rw [he] at hcall
      cases hcall

/-- **`SetMaxSegmentSize`** may make a new segment. -/
theorem Metered.call_setMaxSegmentSize (h : Metered m l.s) {size : Int}
    (hcall : l.call (.setMaxSegmentSize size) = some l') : Metered m l'.s ∧
      (l.Bounded m → (l'.Bounded m ↔ LeavesRoom l.s (.setMaxSegmentSize size))) := by
  obtain ⟨ps, p, hsegs, htail, hlast⟩ := h.exists_tail
  have hr : Metered m (l.s.resized size) := h.resized size
  have hroom : LeavesRoom l.s (.setMaxSegmentSize size)
      ↔ (size ≤ (l.s.heap p).size → (footerSize : Int) ≤ size) := by
    rw [LeavesRoom, htail]
    exact ⟨fun hroom => hroom p rfl, fun hroom q hq => by cases hq; exact hroom⟩
  rw [Ledger.call] at hcall
  split at hcall
  case isFalse => cases hcall
  case isTrue hfree =>
    rcases setMaxSegmentSize_cases h.calm htail hfree with
      ⟨hle, hnext, he⟩ | ⟨-, -, he⟩ | ⟨hlt, he⟩
    · rw [he] at hcall
      cases hcall
      have hg : OneGrew l.s ((l.s.resized size).rolled (l.s.resized size).newSegment
          (l.s.resized size).newDisk) (l.s.resized size).next := by
        obtain ⟨hmem, hgrew, hothers⟩ := hr.oneGrew_rolled hnext
        refine ⟨hmem, hgrew, fun q hq hqp => ?_⟩
        obtain ⟨hold, hpath, hsize⟩ := hothers q hq hqp
        exact ⟨hold, hpath.trans (limited_path ..), hsize.trans (limited_size ..)⟩
      have hm := hr.rolled hnext
      refine ⟨hm, fun hb => ?_⟩
      rw [bounded_iff_of_oneGrew h.toMembers hm.toMembers hg hb, rolled_heap_next, hroom]
      exact ⟨fun hfooter _ => hfooter, fun hfooter => hfooter hle⟩
    · rw [he] at hcall
      cases hcall
    · rw [he] at hcall
      cases hcall
      refine ⟨hr, fun hb => iff_of_true ?_ (hroom.mpr fun hle => absurd hle (by omega))⟩
      exact bounded_of_noneGrew h.toMembers hr.toMembers
        (fun q hq => ⟨hq, limited_path .., limited_size ..⟩) hb

/-- A steady method of one segment lets no file grow. -/
theorem noneGrew_put {s : QState} {p : Ptr} {t : SegState}
    (ht : Steady { seg := s.heap p, disk := s.disk } t) : NoneGrew s (s.put p t) := by
  refine fun q hq => ⟨hq, put_path ht.toFrame q, ?_⟩
  by_cases hqp : q = p
  · rw [hqp, put_heap_self]
    exact ht.size_eq
  · rw [put_heap_ne s t hqp]

/-- `trimHead`, also where it fails, grows nothing. -/
theorem Metered.trimHead {s : QState} (h : Metered m s) :
    Metered m (final (Queue.trimHead s)) ∧ NoneGrew s (final (Queue.trimHead s)) := by
  obtain ⟨p, ps, hsegs, -⟩ := h.exists_head
  cases ps with
  | nil =>
    rw [trimHead_single (by rw [hsegs]; exact Nat.le_refl 1)]
    exact ⟨h, fun q hq => ⟨hq, rfl, rfl⟩⟩
  | cons q ps =>
    rw [h.toBody.attached.trimHead hsegs]
    refine ⟨h.trimmed hsegs, fun r hr => ?_⟩
    rw [final_ok, trimmed_segments hsegs] at hr
    obtain ⟨hmem, hheap, -⟩ := h.toBody.attached.trimmed_same hsegs hr
    rw [final_ok, hheap]
    exact ⟨hmem, rfl, rfl⟩

/-- `Current` lets no file grow. -/
theorem Metered.current {s : QState} (h : Metered m s) :
    Metered m (final (Queue.current s)) ∧ NoneGrew s (final (Queue.current s)) := by
  obtain ⟨p, hp, t, ht, he⟩ := h.current_eq
  rw [he]
  exact ⟨h.put (h.steady hp ht) ht.toFrame, noneGrew_put ht⟩

/-- `Advance` lets no file grow. -/
theorem Metered.advance {s : QState} (h : Metered m s) :
    Metered m (final (Queue.advance s)) ∧ NoneGrew s (final (Queue.advance s)) := by
  obtain ⟨p, hp, t, ht, he⟩ := h.advance_eq
  have hput : Metered m (s.put p t) := h.put (h.steady hp ht) ht.toFrame
  rcases he with he | he
  · rw [he]
    exact ⟨hput, noneGrew_put ht⟩
  · obtain ⟨hm, hnone⟩ := hput.trimHead
    rw [he]
    exact ⟨hm, (noneGrew_put ht).trans hnone⟩

/-- **One step**: the bounds are kept exactly if the call leaves room. -/
theorem Metered.step (h : Metered m l.s) {c : Time × Method} (hstep : l.step c = some l') :
    Metered m l'.s ∧ (l.Bounded m → (l'.Bounded m ↔ LeavesRoom (l.s.facing c.1 []) c.2)) := by
  obtain ⟨now, method⟩ := c
  have hm : Metered m (l.facing now).s := h.facing now
  rw [Ledger.step] at hstep
  cases method with
  | append b => exact hm.call_append hstep
  | setMaxSegmentSize size => exact hm.call_setMaxSegmentSize hstep
  | current =>
    cases hstep
    obtain ⟨hm', hnone⟩ := hm.current
    exact ⟨hm', fun hb => iff_of_true
      (bounded_of_noneGrew hm.toMembers hm'.toMembers hnone hb) trivial⟩
  | advance =>
    cases hstep
    obtain ⟨hm', hnone⟩ := hm.advance
    exact ⟨hm', fun hb => iff_of_true
      (bounded_of_noneGrew hm.toMembers hm'.toMembers hnone hb) trivial⟩
  | openQueue | purgeOlderThan => cases hstep

end Step

/-! ## Whole runs -/

/-- The books when the queue has been opened: its file has been made under the default limit. -/
def Ledger.start (s : QState) : Ledger :=
  { s := s, limits := fun _ => defaultSegmentSize, stored := false }

/-- A queue opened on an empty directory has one empty segment. -/
theorem metered_opened {m : Int} {d : Disk} {s₀ : QState} (hd : d.entries = ∅)
    (hc : d.script = []) (hopen : Queue.openQueue (newQueue m d) = .ok () s₀) :
    Metered m s₀ ∧ (Ledger.start s₀).Bounded m := by
  set s := newQueue m d with hs
  have hlookup : ∀ name, s.disk.entries.lookup name = none := fun name => by
    show d.entries.lookup name = none
    rw [hd]
    exact AList.lookup_empty name
  have hfree : ¬ s.Blocked := fun hblocked => by
    rw [QState.Blocked, hlookup] at hblocked
    cases hblocked
  have hload : Queue.loadSegments s = .ok [] s := by
    have hdir : s.disk.readDir = [] := by
      show d.readDir = []
      rw [Disk.readDir, hd]
      rfl
    rw [Queue.loadSegments, hdir]
    rfl
  have hempty : Members s := by
    refine ⟨fun p hp => ?_, List.nodup_nil, fun p hp => ?_, fun p hp => ?_, fun name f hf => ?_, hc⟩
    · cases hp
    · cases hp
    · cases hp
    · rw [Disk.file?, hlookup] at hf
      cases hf
  have hnext : NextFree s.disk := hempty.nextFree_of_le_one (Nat.zero_le 1)
  set s₁ := s.added s.newSegment s.newDisk with hs₁
  have hrun : Queue.openQueue s = Queue.openEnds s₁ := by
    rw [Queue.openQueue, bind_ok hload, bind_ok (assign_run _ _), if_pos rfl]
    exact bind_ok (addSegment_free (s := s) hc hnext hfree)
  obtain ⟨hshape, hst⟩ := (hempty.added hnext).ended (List.cons_ne_nil _ _)
  have hnew : s₁.ended.heap s.next = s.newSegment :=
    added_heap_next (s := s) s.newSegment s.newDisk
  have hmetered : Metered m s₁.ended := by
    refine ⟨hshape, hst.tail_eq, fun p hp => ?_, rfl⟩
    rw [List.mem_singleton.mp hp, hnew]
    rfl
  obtain ⟨p, hp, t, ht, he⟩ := hshape.openEnds_eq
  have hput : Metered m (s₁.ended.put p t) := hmetered.put (hshape.steady (p := p) hp ht) ht.toFrame
  have hkept : NoneGrew s₁.ended (s₁.ended.put p t) := noneGrew_put (s := s₁.ended) ht
  obtain ⟨hm, hnone⟩ : Metered m s₀ ∧ NoneGrew s₁.ended s₀ := by
    rw [hrun] at hopen
    rcases he with he | he
    · cases hopen.symm.trans he
      exact ⟨hput, hkept⟩
    · obtain ⟨hm, hnone⟩ := hput.trimHead
      rw [← he, hopen] at hm hnone
      exact ⟨hm, hkept.trans hnone⟩
  refine ⟨hm, fun hf => absurd hf Bool.false_ne_true, hm.within_iff.mpr fun q hq => ?_⟩
  obtain ⟨hmem, -, hsize⟩ := hnone q hq
  rw [hsize, List.mem_singleton.mp hmem, hnew]
  exact (by decide : (footerSize : Int) ≤ defaultSegmentSize)

/-- **The bounds hold in every state of a run exactly if every call leaves room for what the checks
    leave out.**  From `Open` on an empty directory. -/
theorem disk_bound_iff {m : Int} {d : Disk} {s₀ : QState} (hd : d.entries = ∅)
    (hc : d.script = []) (hopen : Queue.openQueue (newQueue m d) = .ok () s₀)
    (w : List (Time × Method)) :
    (∀ k l, (w.take k).foldlM Ledger.step (Ledger.start s₀) = some l → l.Bounded m)
      ↔ Along Ledger.step (fun l c => (l.step c).isSome → LeavesRoom (l.s.facing c.1 []) c.2)
          (Ledger.start s₀) w := by
  obtain ⟨hm, hb⟩ := metered_opened hd hc hopen
  exact foldlM_take_inv_iff (J := fun l => Metered m l.s)
    (fun l c l' h hstep => (h.step hstep).1) (fun l c l' h hb hstep => (h.step hstep).2 hb) w hm hb

/-- A limit of 34 bytes for the queue and of 17 for a segment: two records of one byte. -/
theorem disk_bound_iff_two : ∃ s₀ l, Queue.openQueue (newQueue 34 Disk.empty) = .ok () s₀ ∧
    [(0, Method.setMaxSegmentSize 17), (0, .append [1]), (0, .append [2])].foldlM Ledger.step
      (Ledger.start s₀) = some l ∧
    l.stored = true ∧ diskBytes l.s.disk = 34 ∧ l.Bounded 34 := by
  set s₀ := final (Queue.openQueue (newQueue 34 Disk.empty)) with hs₀
  set w := [((0 : Time), Method.setMaxSegmentSize 17), (0, .append [1]), (0, .append [2])] with hw
  have hopen : Queue.openQueue (newQueue 34 Disk.empty) = .ok () s₀ :=
    eq_ok_of_returned (by decide +kernel)
  obtain ⟨l, hl⟩ := Option.isSome_iff_exists.mp
    (show (w.foldlM Ledger.step (Ledger.start s₀)).isSome from by decide +kernel)
  have hvals : (w.foldlM Ledger.step (Ledger.start s₀)).map (fun l => (l.stored, diskBytes l.s.disk))
      = some (true, 34) := by
    decide +kernel
  rw [hl] at hvals
  obtain ⟨hstored, hbytes⟩ := Prod.mk.inj (Option.some.inj hvals)
  exact ⟨s₀, l, hopen, hl, hstored, hbytes,
    (disk_bound_iff rfl rfl hopen w).mpr (by decide +kernel) 3 l hl⟩

/-- **Both limits passed**: eight bytes in a queue and a segment of 16 make a file of 24. -/
theorem append_passes_limits : ∃ s₀ l, Queue.openQueue (newQueue 16 Disk.empty) = .ok () s₀ ∧
    [(0, Method.setMaxSegmentSize 16), (0, .append [1, 2, 3, 4, 5, 6, 7, 8])].foldlM Ledger.step
      (Ledger.start s₀) = some l ∧
    l.stored = true ∧ diskBytes l.s.disk = 24 ∧ fileSize l.s.disk (formatUint 1) = 24 ∧
    l.limits (formatUint 1) = 16 ∧
    ¬ l.Bounded 16 := by
  set s₀ := final (Queue.openQueue (newQueue 16 Disk.empty)) with hs₀
  set w := [((0 : Time), Method.setMaxSegmentSize 16), (0, .append [1, 2, 3, 4, 5, 6, 7, 8])] with hw
  obtain ⟨l, hl⟩ := Option.isSome_iff_exists.mp
    (show (w.foldlM Ledger.step (Ledger.start s₀)).isSome from by decide +kernel)
  have hvals : (w.foldlM Ledger.step (Ledger.start s₀)).map
      (fun l => (l.stored, diskBytes l.s.disk, fileSize l.s.disk (formatUint 1),
        l.limits (formatUint 1)))
      = some (true, 24, 24, 16) := by
    decide +kernel
  rw [hl] at hvals
  obtain ⟨hstored, hrest⟩ := Prod.mk.inj (Option.some.inj hvals)
  obtain ⟨hbytes, hrest⟩ := Prod.mk.inj hrest
  obtain ⟨hsize, hlimit⟩ := Prod.mk.inj hrest
  refine ⟨s₀, l, eq_ok_of_returned (by decide +kernel), hl, hstored, hbytes, hsize, hlimit, ?_⟩
  intro hb
  have hle := hb.1 hstored
  rw [hbytes] at hle
  exact absurd hle (by decide)

/-! ## A refused `Append` -/

/-- The queue, its files and its content are as they were. -/
structure Unchanged (s s' : QState) : Prop where
  segments : s'.q.segments = s.q.segments
  head : s'.q.head = s.q.head
  tail : s'.q.tail = s.q.tail
  files : ∀ name, s'.disk.file? name = s.disk.file? name
  content_eq : content s' = content s

/-- The states of a run without faults are open queues. -/
theorem shape_of_run {maxSize maxSegmentSize : Int} {d : Disk} {s₀ s : QState} (hd : d.script = [])
    (hopen : Queue.openQueue (QState.fresh maxSize maxSegmentSize d) = .ok () s₀)
    {w : List (Time × Method)} (hrun : w.foldlM QState.step s₀ = some s) : Shape s :=
  foldlM_inv (fun _ _ _ h hstep => (h.step hstep).1) (shape_of_openQueue hd hopen).1 hrun

/-- The error says that a limit is reached. -/
def Err.Refusal (e : Err) : Prop := e = .queueFull ∨ e = .segmentFull

/-- `x` never says that a limit is reached. -/
def NeverRefuses {σ α : Type} (x : EStateM Err σ α) : Prop :=
  Triple (fun _ => True) x (fun _ _ => True) (fun e _ => ¬ e.Refusal)

section Refusal

variable {σ α β : Type} {x : EStateM Err σ α}

theorem NeverRefuses.bind {f : α → EStateM Err σ β} (hx : NeverRefuses x)
    (hf : ∀ a, NeverRefuses (f a)) : NeverRefuses (x >>= f) := Triple.bind hx hf

theorem NeverRefuses.pure (a : α) : NeverRefuses (pure a : EStateM Err σ α) := fun _ _ => trivial

/-- An error of such a call is no refusal. -/
theorem NeverRefuses.error (h : NeverRefuses x) {s s' : σ} {e : Err} (he : x s = .error e s') :
    ¬ e.Refusal := by
  have hs := h s trivial
  rw [he] at hs
  exact hs

/-- The calls on the file answer with errors of their own. -/
theorem neverRefuses_fileSeek (pos : Int) (w : Whence) : NeverRefuses (fileSeek pos w) := by
  intro s _
  rw [fileSeek]
  cases openFile? s with
  | error e => rintro (h | h) <;> cases h
  | ok hf =>
    dsimp only
    split_ifs
    · rintro (h | h) <;> cases h
    · trivial

theorem neverRefuses_fileWrite (b : Bytes) : NeverRefuses (fileWrite b) := by
  intro s _
  rw [fileWrite]
  cases openFile? s with
  | error e => rintro (h | h) <;> cases h
  | ok hf =>
    dsimp only
    cases s.disk.outcome with
    | fail n => rintro (h | h) <;> cases h
    | ok =>
      dsimp only
      split_ifs
      · rintro (h | h) <;> cases h
      · trivial
      · trivial

theorem neverRefuses_fileRead (n : Nat) : NeverRefuses (fileRead n) := by
  intro s _
  rw [fileRead]
  cases openFile? s with
  | error e => rintro (h | h) <;> cases h
  | ok hf =>
    dsimp only
    cases s.disk.outcome with
    | fail n => rintro (h | h) <;> cases h
    | ok =>
      dsimp only
      split_ifs
      · rintro (h | h) <;> cases h
      · trivial

theorem neverRefuses_fileSync : NeverRefuses fileSync := by
  intro s _
  rw [fileSync]
  cases openFile? s with
  | error e => rintro (h | h) <;> cases h
  | ok hf =>
    dsimp only
    cases s.disk.outcome with
    | fail n => rintro (h | h) <;> cases h
    | ok => trivial

theorem neverRefuses_readUint64 : NeverRefuses Segment.readUint64 := by
  refine NeverRefuses.bind ((neverRefuses_fileRead 8).bind fun b => ?_) fun b => fun _ _ => trivial
  by_cases hlen : b.length ≠ 8
  · rw [if_pos hlen]
    refine NeverRefuses.bind (fun _ _ => ?_) fun _ => NeverRefuses.pure b
    rintro (h | h) <;> cases h
  · rw [if_neg hlen]
    exact NeverRefuses.pure b

theorem neverRefuses_writeUint64 (n : Nat) : NeverRefuses (Segment.writeUint64 n) := by
  refine (neverRefuses_fileWrite (putUint64 n)).bind fun k => ?_
  by_cases hlen : k ≠ (putUint64 n).length
  · rw [if_pos hlen]
    intro _ _
    rintro (h | h) <;> cases h
  · rw [if_neg hlen]
    exact fun _ _ => trivial

theorem neverRefuses_seekToCurrent : NeverRefuses Segment.seekToCurrent := by
  refine NeverRefuses.bind (fun _ _ => trivial) fun l =>
    (neverRefuses_fileSeek l.pos .set).bind fun n => ?_
  by_cases hn : n ≠ l.pos
  · rw [if_pos hn]
    intro _ _
    rintro (h | h) <;> cases h
  · rw [if_neg hn]
    exact fun _ _ => trivial

/-- Opening a file asks for no room in it. -/
theorem neverRefuses_openSegment : NeverRefuses Segment.openSegment := by
  refine NeverRefuses.bind (fun _ _ => trivial) fun l => ?_
  by_cases hnew : l.size = 0
  · rw [if_pos hnew]
    exact NeverRefuses.bind (fun _ _ => trivial) fun _ => (neverRefuses_writeUint64 0).bind fun _ =>
      neverRefuses_fileSync.bind fun _ => fun _ _ => trivial
  · rw [if_neg hnew]
    refine NeverRefuses.bind ((neverRefuses_fileSeek _ _).bind fun _ => fun _ _ => trivial) fun _ =>
      neverRefuses_readUint64.bind fun pos => NeverRefuses.bind (fun _ _ => trivial) fun _ =>
        neverRefuses_seekToCurrent.bind fun _ => NeverRefuses.bind (fun _ _ => trivial) fun l' => ?_
    by_cases hend : l'.pos < l'.size - footerSize
    · rw [if_pos hend]
      exact neverRefuses_readUint64.bind fun _ => fun _ _ => trivial
    · rw [if_neg hend]
      exact fun _ _ => trivial

/-- Opening a segment fails for other reasons than its limits. -/
theorem newSegmentPtr_error {path : FileName} {m : Int} {s s' : QState} {e : Err}
    (h : newSegmentPtr path m s = .error e s') : ¬ e.Refusal := by
  rw [newSegmentPtr, newSegment] at h
  cases ho : openOrCreate path s.disk with
  | error err =>
    rw [ho] at h
    cases h
    rintro (h | h) <;> cases h
  | ok d =>
    rw [ho] at h
    dsimp only at h
    cases hf : d.file? path with
    | none =>
      rw [hf] at h
      cases h
      rintro (h | h) <;> cases h
    | some f =>
      rw [hf] at h
      dsimp only at h
      split at h
      · cases h
      · rename_i e' d' heq
        cases h
        split at heq
        · cases heq
        · rename_i hopen
          cases heq
          exact neverRefuses_openSegment.error hopen

end Refusal

/-- **`addSegment`**, whatever it finds under the next name: one more segment, or an error that is no
    refusal. -/
theorem addSegment_inv (s : QState) :
    (∃ p s', Queue.addSegment s = .ok p s' ∧ s'.q.segments = s.q.segments ++ [p]) ∨
    ∃ e s', Queue.addSegment s = .error e s' ∧ ¬ e.Refusal := by
  have hid : Queue.nextSegmentID s
      = .ok ((Queue.maxSegmentID 0 s.disk.readDir + 1) % 2 ^ 64) s := rfl
  rw [Queue.addSegment, bind_ok hid, bind_ok (self_run s), ← nextPath]
  cases hptr : newSegmentPtr (nextPath s.disk) s.q.maxSegmentSize s with
  | error e s' =>
    rw [bind_error hptr]
    exact .inr ⟨e, s', rfl, newSegmentPtr_error hptr⟩
  | ok p s' =>
    have hq : s'.q = s.q := by
      rw [newSegmentPtr] at hptr
      split at hptr
      · cases hptr
        rfl
      · cases hptr
    rw [bind_ok hptr, bind_ok (assign_run _ _)]
    refine .inl ⟨p, _, rfl, ?_⟩
    show s'.q.segments ++ [p] = _
    rw [hq]

/-- A refusal that is not about the queue leaves one more segment. -/
theorem refused_rolled {s s' : QState} {p : Ptr} {b : Bytes} {e : Err} (htail : s.q.tail = some p)
    (hq : s.usage + b.length ≤ s.q.maxSize) (herr : Queue.append b s = .error e s')
    (he : e.Refusal) : ∃ q, s'.q.segments = s.q.segments ++ [q] := by
  rw [Queue.append, bind_ok (self_run s), htail] at herr
  dsimp only at herr
  rw [bind_ok (show Queue.diskUsage s = .ok s.usage s from rfl), if_neg (by omega)] at herr
  cases hx : Segment.append b { seg := s.heap p, disk := s.disk } with
  | ok u t =>
    rw [bind_ok (attempt_ok (call_ok hx))] at herr
    cases herr
  | error x t =>
    rw [bind_ok (attempt_error (call_error hx))] at herr
    cases x with
    | segmentFull =>
      change (Queue.addSegment >>= fun segment =>
        assign (fun l => { l with tail := some segment }) >>= fun _ =>
        call segment (Segment.append b)) (s.put p t) = _ at herr
      rcases addSegment_inv (s.put p t) with ⟨q, s₁, ha, hsegs⟩ | ⟨e', s₁, ha, hno⟩
      · rw [bind_ok ha, bind_ok (assign_run _ _)] at herr
        refine ⟨q, ?_⟩
        rw [call] at herr
        split at herr
        · cases herr
        · cases herr
          exact hsegs
      · rw [bind_error ha] at herr
        cases herr
        exact absurd he hno
    | notOpen | queueFull | badSeek | shortWrite | badRead | recordSize | queueOpen | os | panicked
    | unfinished | eof => cases herr

/-- **A refused `Append` changes nothing exactly if it is the queue that is full.**  On every queue
    that a run without faults leads to. -/
theorem refused_append_unchanged_iff {maxSize maxSegmentSize : Int} {d : Disk} {s₀ s s' : QState}
    (hd : d.script = [])
    (hopen : Queue.openQueue (QState.fresh maxSize maxSegmentSize d) = .ok () s₀)
    {w : List (Time × Method)} (hrun : w.foldlM QState.step s₀ = some s) {b : Bytes} {e : Err}
    (herr : Queue.append b s = .error e s') (he : e = .queueFull ∨ e = .segmentFull) :
    Unchanged s s' ↔ s.q.maxSize < s.usage + b.length := by
  have h := shape_of_run hd hopen hrun
  obtain ⟨p, htail, -, -⟩ := h.tail
  by_cases hq : s.q.maxSize < s.usage + b.length
  · rw [append_queueFull htail hq] at herr
    cases herr
    exact iff_of_true ⟨rfl, rfl, rfl, fun _ => rfl, rfl⟩ hq
  · refine iff_of_false (fun hsame => ?_) hq
    -- the new segment is still there
    obtain ⟨q, hsegs⟩ := refused_rolled htail (by omega) herr he
    have hlen := congrArg List.length (hsegs.symm.trans hsame.segments)
    rw [List.length_append, List.length_singleton] at hlen
    omega

/-- The queue is full after one record. -/
theorem refused_append_unchanged_full : ∃ s₀ s s',
    Queue.openQueue (QState.fresh 20 100 Disk.empty) = .ok () s₀ ∧
    [(0, Method.append [1])].foldlM QState.step s₀ = some s ∧
    Queue.append [1, 2, 3, 4] s = .error .queueFull s' ∧ content s = some [[1]] ∧ Unchanged s s' := by
  set s₀ := final (Queue.openQueue (QState.fresh 20 100 Disk.empty)) with hs₀
  set s := final (Queue.append [1] (s₀.facing 0 [])) with hs
  have hopen : Queue.openQueue (QState.fresh 20 100 Disk.empty) = .ok () s₀ :=
    eq_ok_of_returned (by decide +kernel)
  have hrun : [((0 : Time), Method.append [1])].foldlM QState.step s₀ = some s := by
    rw [List.foldlM_cons, QState.step, if_pos (by decide +kernel)]
    rfl
  have herr : Queue.append [1, 2, 3, 4] s = .error .queueFull (final (Queue.append [1, 2, 3, 4] s)) :=
    eq_error_of_failure (by decide +kernel)
  exact ⟨s₀, s, _, hopen, hrun, herr, by decide +kernel, (refused_append_unchanged_iff rfl hopen hrun
    herr (.inl rfl)).mpr (by decide +kernel)⟩

/-- **A segment left behind**: a slice that no segment can take, and a new segment each time. -/
theorem refused_append_leaves_segment : ∃ s₀ s₁ s₂,
    Queue.openQueue (QState.fresh 1000 10 Disk.empty) = .ok () s₀ ∧
    Queue.append [1, 2, 3] s₀ = .error .segmentFull s₁ ∧
    Queue.append [1, 2, 3] s₁ = .error .segmentFull s₂ ∧
    s₀.q.segments = [0] ∧ s₁.q.segments = [0, 1] ∧ s₂.q.segments = [0, 1, 2] ∧
    s₀.q.tail = some 0 ∧ s₁.q.tail = some 1 ∧ ¬ Unchanged s₀ s₁ := by
  set s₀ := final (Queue.openQueue (QState.fresh 1000 10 Disk.empty)) with hs₀
  set s₁ := final (Queue.append [1, 2, 3] s₀) with hs₁
  have hsegs₀ : s₀.q.segments = [0] := by decide +kernel
  have hsegs₁ : s₁.q.segments = [0, 1] := by decide +kernel
  refine ⟨s₀, s₁, _, eq_ok_of_returned (by decide +kernel), eq_error_of_failure (by decide +kernel),
    eq_error_of_failure (by decide +kernel), hsegs₀, hsegs₁, by decide +kernel, by decide +kernel,
    by decide +kernel, fun hsame => ?_⟩
  have hbad := hsame.segments
  rw [hsegs₀, hsegs₁] at hbad
  exact absurd hbad (by decide)

end InfluxCluster.HH
