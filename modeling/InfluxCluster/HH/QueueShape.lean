/-
  The shape of an open queue: which segments it has, and which files.

  `Body s` says of `l.segments` and the directory that they fit: every segment has the shape of
  `SegmentShape`, in a file of its own, the numeric files are those of the segments, and `l.head` is
  the first segment.  Slices and records play no part in it, so that it holds for queues on any
  directory that could be opened.

  THE TAIL is another matter.  `l.tail` is the last segment, or it is STALE: closed, and no longer
  one of the segments.  That is what `Shape` says, and every method keeps `Shape`.  Which of the two
  it is makes the difference between the queue that one would expect (`Structured`) and a queue that
  drops what is appended to it.

  Each change of the state is one of three: a method of one segment (`Body.put`), a new segment
  behind the others (`Body.added`), and the first one dropped (`Body.trimmed`).
-/
import InfluxCluster.HH.QueueOpen
import InfluxCluster.HH.SegmentShape

namespace InfluxCluster.HH

open InfluxCluster.Lib

/-- The segments of a queue, and its files; no call is scripted to fail. -/
structure Members (s : QState) : Prop where
  sized : ∀ p ∈ s.q.segments, Sized (s.heap p) s.disk
  paths : (s.q.segments.map fun p => (s.heap p).path).Nodup
  fresh : ∀ p ∈ s.q.segments, p < s.next
  numeric : ∀ p ∈ s.q.segments, parseUint (s.heap p).path ≠ none
  owned : ∀ name f, s.disk.file? name = some f → parseUint name ≠ none →
    ∃ p ∈ s.q.segments, (s.heap p).path = name
  calm : s.disk.script = []

/-- **The segments of an open queue**: there is one, and the head is the first. -/
structure Body (s : QState) : Prop extends Members s where
  nonempty : s.q.segments ≠ []
  head_eq : s.q.head = s.q.segments.head?

/-- The tail is the last segment, or stale: a closed one. -/
def TailOK (s : QState) : Prop :=
  ∃ p, s.q.tail = some p ∧ p < s.next ∧
    (s.q.segments.getLast? = some p ∨ (s.heap p).file = none)

/-- **The shape of an open queue.** -/
structure Shape (s : QState) : Prop extends Body s where
  tail : TailOK s

/-- **What one would expect of an open queue**: there are segments, head and tail are the first and
    the last, each has an open file that is in the directory, and each numeric file of the directory
    is that of one of them. -/
structure Structured (s : QState) : Prop where
  nonempty : s.q.segments ≠ []
  head_eq : s.q.head = s.q.segments.head?
  tail_eq : s.q.tail = s.q.segments.getLast?
  opened : ∀ p ∈ s.q.segments, ∃ h f, (s.heap p).file = some h ∧ s.disk.file? h.name = some f
  owned : ∀ name f, s.disk.file? name = some f → parseUint name ≠ none →
    (s.q.segments.countP fun p => (s.heap p).path = name) = 1

section Body

variable {s : QState} {p q : Ptr} {ps : List Ptr} {t : SegState}

/-- The segments of a queue are different, and so are their files. -/
theorem Members.path_ne (h : Members s) (hp : p ∈ s.q.segments) (hq : q ∈ s.q.segments)
    (hne : p ≠ q) : (s.heap p).path ≠ (s.heap q).path := fun heq =>
  hne (List.inj_on_of_nodup_map h.paths hp hq heq)

theorem Members.nodup (h : Members s) : s.q.segments.Nodup := h.paths.of_map _

/-- **A queue whose tail is the last segment is as one would expect.** -/
theorem Body.structured_iff (h : Body s) :
    Structured s ↔ s.q.tail = s.q.segments.getLast? := by
  refine ⟨Structured.tail_eq, fun htail => ⟨h.nonempty, h.head_eq, htail, fun p hp => ?_, ?_⟩⟩
  · obtain ⟨off, ho⟩ := (h.sized p hp).handle
    obtain ⟨f, hf, -⟩ := (h.sized p hp).stored
    exact ⟨_, f, ho, hf⟩
  · intro name f hf hn
    obtain ⟨p, hp, rfl⟩ := h.owned name f hf hn
    have hcount : (s.q.segments.map fun q => (s.heap q).path).count (s.heap p).path = 1 :=
      List.count_eq_one_of_mem h.paths (List.mem_map_of_mem hp)
    rw [List.count, List.countP_map] at hcount
    rw [← hcount]
    exact List.countP_congr fun q _ => by simp

/-! ## A method of one segment -/

/-- A method of a segment changes its own file and nothing else. -/
theorem Body.put (h : Body s) (hp : p ∈ s.q.segments)
    (hf : Frame { seg := s.heap p, disk := s.disk } t) (ht : Sized t.seg t.disk)
    (hc : t.disk.script = []) : Body (s.put p t) := by
  have hpath := put_path hf
  have hown : t.seg.path = (s.heap p).path := hf.path_eq
  refine ⟨⟨fun q hq => ?_, ?_, h.fresh, fun q hq => ?_, fun name f hfile hn => ?_, hc⟩,
    h.nonempty, h.head_eq⟩
  · by_cases hqp : q = p
    · rw [hqp, put_heap_self]
      exact ht
    · rw [put_heap_ne s t hqp]
      exact (h.sized q hq).congr (hf.others _ (h.path_ne hq hp hqp))
  · have hmap : (s.q.segments.map fun q => ((s.put p t).heap q).path)
        = s.q.segments.map fun q => (s.heap q).path := List.map_congr_left fun q _ => hpath q
    show (s.q.segments.map fun q => ((s.put p t).heap q).path).Nodup
    rw [hmap]
    exact h.paths
  · rw [hpath]
    exact h.numeric q hq
  · by_cases hname : name = (s.heap p).path
    · exact ⟨p, hp, by rw [hpath, hname]⟩
    · have hold : s.disk.file? name = some f := by
        rw [← hfile]
        exact (Disk.file?_congr (hf.others name hname)).symm
      obtain ⟨q, hq, hqn⟩ := h.owned name f hold hn
      exact ⟨q, hq, by rw [hpath, hqn]⟩

/-- A method of an open segment does not touch a stale tail. -/
theorem TailOK.put (h : TailOK s) (hp : (s.heap p).file ≠ none) : TailOK (s.put p t) := by
  obtain ⟨q, hq, hlt, hlast | hclosed⟩ := h
  · exact ⟨q, hq, hlt, .inl hlast⟩
  · refine ⟨q, hq, hlt, .inr ?_⟩
    have hne : q ≠ p := by
      rintro rfl
      exact hp hclosed
    rw [put_heap_ne s t hne]
    exact hclosed

/-- A method of one segment, by what it does to that segment. -/
theorem Shape.put (h : Shape s) (hp : p ∈ s.q.segments)
    (hf : Frame { seg := s.heap p, disk := s.disk } t) (ht : Sized t.seg t.disk)
    (hc : t.disk.script = []) : Shape (s.put p t) :=
  ⟨h.toBody.put hp hf ht hc, h.tail.put (h.sized p hp).file_ne_none⟩

/-- A method that leaves the file alone. -/
theorem Shape.steady (h : Shape s) (hp : p ∈ s.q.segments)
    (ht : Steady { seg := s.heap p, disk := s.disk } t) : Shape (s.put p t) :=
  h.put hp ht.toFrame ht.sized ht.calm

/-! ## A new segment -/

/-- The segment that `addSegment` makes. -/
def QState.newSegment (s : QState) : Segment :=
  { size := footerSize, file := some { name := nextPath s.disk, off := 8 },
    path := nextPath s.disk, pos := 0, currentSize := 0, maxSize := s.q.maxSegmentSize }

/-- The disk with its file. -/
def QState.newDisk (s : QState) : Disk :=
  (s.disk.skip 2).put (nextPath s.disk) { data := putUint64 0, modTime := s.disk.now }

/-- A directory has the name that the new file would get. -/
def QState.Blocked (s : QState) : Prop := s.disk.entries.lookup (nextPath s.disk) = some .dir

/-- **`addSegment`, executed** under a free name. -/
theorem addSegment_free (hc : s.disk.script = []) (hfree : NextFree s.disk) (hdir : ¬ s.Blocked) :
    Queue.addSegment s = .ok s.next (s.added s.newSegment s.newDisk) := by
  have hlookup : s.disk.entries.lookup (nextPath s.disk) = none := by
    cases hl : s.disk.entries.lookup (nextPath s.disk) with
    | none => rfl
    | some x =>
      cases x with
      | dir => exact absurd hl hdir
      | file f =>
        rw [NextFree, Disk.file?, hl] at hfree
        cases hfree
  have hid : Queue.nextSegmentID s
      = .ok ((Queue.maxSegmentID 0 s.disk.readDir + 1) % 2 ^ 64) s := rfl
  have hnew : newSegment (nextPath s.disk) s.q.maxSegmentSize s.disk = .ok s.newSegment s.newDisk :=
    Segment.newSegment_create hlookup (Disk.calm_of_script_nil hc 2)
  have hptr : newSegmentPtr (nextPath s.disk) s.q.maxSegmentSize s = .ok s.next
      { s with heap := Function.update s.heap s.next s.newSegment, next := s.next + 1,
               disk := s.newDisk } := by
    rw [newSegmentPtr, hnew]
  rw [Queue.addSegment, bind_ok hid, bind_ok (self_run s), ← nextPath, bind_ok hptr,
    bind_ok (assign_run _ _)]
  rfl

/-- A directory in the way: nothing happens. -/
theorem addSegment_blocked (hblocked : s.Blocked) :
    Queue.addSegment s = .error (.os .isDir) s := by
  have hid : Queue.nextSegmentID s
      = .ok ((Queue.maxSegmentID 0 s.disk.readDir + 1) % 2 ^ 64) s := rfl
  have hnew : newSegment (nextPath s.disk) s.q.maxSegmentSize s.disk
      = .error (.os .isDir) s.disk := by
    rw [newSegment, openOrCreate, hblocked]
  have hptr : newSegmentPtr (nextPath s.disk) s.q.maxSegmentSize s = .error (.os .isDir) s := by
    rw [newSegmentPtr, hnew]
  rw [Queue.addSegment, bind_ok hid, bind_ok (self_run s), ← nextPath, bind_error hptr]

/-- A new segment knows the size of its file. -/
theorem sized_newSegment (s : QState) : Sized s.newSegment s.newDisk :=
  ⟨⟨8, rfl⟩, _, Disk.file?_put_self _ _ _, rfl, Nat.le_refl _⟩

theorem newDisk_calm (hc : s.disk.script = []) : s.newDisk.script = [] := by
  show s.disk.script.drop 2 = []
  rw [hc, List.drop_nil]

theorem added_heap_of_lt (l : Segment) (d : Disk) (hq : q < s.next) :
    (s.added l d).heap q = s.heap q := Function.update_of_ne (Nat.ne_of_lt hq) ..

theorem added_heap_next (l : Segment) (d : Disk) : (s.added l d).heap s.next = l :=
  Function.update_self ..

/-- A free name is not that of a segment. -/
theorem Members.path_ne_nextPath (h : Members s) (hfree : NextFree s.disk)
    (hp : p ∈ s.q.segments) : (s.heap p).path ≠ nextPath s.disk := by
  intro he
  obtain ⟨f, hf, -⟩ := (h.sized p hp).stored
  rw [he, hfree] at hf
  cases hf

/-- The next name is free where there is no more than one segment. -/
theorem Members.nextFree_of_le_one (h : Members s) (hlen : s.q.segments.length ≤ 1) :
    NextFree s.disk := by
  cases hsegs : s.q.segments with
  | nil =>
    refine nextFree_of_none fun name f hf => ?_
    by_contra hn
    obtain ⟨r, hr, -⟩ := h.owned name f hf hn
    rw [hsegs] at hr
    cases hr
  | cons p ps =>
    have hps : ps = [] := by
      rw [hsegs, List.length_cons] at hlen
      exact List.length_eq_zero_iff.mp (by omega)
    refine nextFree_of_single (s.heap p).path fun name f hf hn => ?_
    obtain ⟨r, hr, hrn⟩ := h.owned name f hf hn
    rw [hsegs, hps, List.mem_singleton] at hr
    rw [← hrn, hr]

/-- **One more segment behind the others.** -/
theorem Members.added (h : Members s) (hfree : NextFree s.disk) :
    Members (s.added s.newSegment s.newDisk) := by
  have hold : ∀ q ∈ s.q.segments, (s.added s.newSegment s.newDisk).heap q = s.heap q :=
    fun q hq => added_heap_of_lt _ _ (h.fresh q hq)
  have hnew : (s.added s.newSegment s.newDisk).heap s.next = s.newSegment := added_heap_next _ _
  have hmem : ∀ q, q ∈ s.q.segments ++ [s.next] ↔ q ∈ s.q.segments ∨ q = s.next := by
    intro q
    rw [List.mem_append, List.mem_singleton]
  refine ⟨fun q hq => ?_, ?_, fun q hq => ?_, fun q hq => ?_, fun name f hfile hn => ?_,
    newDisk_calm h.calm⟩
  · rcases (hmem q).mp hq with hq | rfl
    · rw [hold q hq]
      exact (h.sized q hq).congr (lookup_put_ne _ _ (h.path_ne_nextPath hfree hq))
    · rw [hnew]
      exact sized_newSegment s
  · show ((s.q.segments ++ [s.next]).map _).Nodup
    rw [List.map_append, List.map_congr_left fun q hq => by rw [hold q hq]]
    refine List.nodup_append.mpr ⟨h.paths, List.nodup_singleton _, fun a ha b hb => ?_⟩
    obtain ⟨q, hq, rfl⟩ := List.mem_map.mp ha
    rw [List.map_singleton, List.mem_singleton, hnew] at hb
    rw [hb]
    exact h.path_ne_nextPath hfree hq
  · rcases (hmem q).mp hq with hq | rfl
    · exact Nat.lt_succ_of_lt (h.fresh q hq)
    · exact Nat.lt_succ_self _
  · rcases (hmem q).mp hq with hq | rfl
    · rw [hold q hq]
      exact h.numeric q hq
    · rw [hnew]
      exact numeric_nextPath s.disk
  · by_cases hname : name = nextPath s.disk
    · exact ⟨s.next, (hmem _).mpr (.inr rfl), by rw [hnew, hname]; rfl⟩
    · have hfile' : s.disk.file? name = some f := by
        rw [← hfile]
        exact (Disk.file?_congr (lookup_put_ne _ _ hname)).symm
      obtain ⟨q, hq, hqn⟩ := h.owned name f hfile' hn
      exact ⟨q, (hmem q).mpr (.inl hq), by rw [hold q hq, hqn]⟩

/-- A new segment under a free name. -/
theorem Body.added (h : Body s) (hfree : NextFree s.disk) :
    Body (s.added s.newSegment s.newDisk) := by
  refine ⟨h.toMembers.added hfree, List.append_ne_nil_of_right_ne_nil _ (List.cons_ne_nil _ _), ?_⟩
  show s.q.head = (s.q.segments ++ [s.next]).head?
  rw [List.head?_append_of_ne_nil _ h.nonempty, h.head_eq]

/-- The new segment becomes the tail. -/
theorem Body.rolled (h : Body s) (hfree : NextFree s.disk) :
    Shape (s.rolled s.newSegment s.newDisk) := by
  have hb := h.added hfree
  refine ⟨⟨⟨hb.sized, hb.paths, hb.fresh, hb.numeric, hb.owned, hb.calm⟩, hb.nonempty, hb.head_eq⟩,
    s.next, rfl, Nat.lt_succ_self _, .inl ?_⟩
  exact List.getLast?_concat

/-! ## The first segment dropped -/

/-- The segments have open files of their own, and the head is the first.  That is all that
    `trimHead` needs: what the files hold does not matter. -/
structure Attached (s : QState) : Prop where
  handle : ∀ p ∈ s.q.segments, ∃ off, (s.heap p).file = some { name := (s.heap p).path, off := off }
  stored : ∀ p ∈ s.q.segments, ∃ f, s.disk.file? (s.heap p).path = some f
  paths : (s.q.segments.map fun p => (s.heap p).path).Nodup
  fresh : ∀ p ∈ s.q.segments, p < s.next
  nonempty : s.q.segments ≠ []
  head_eq : s.q.head = s.q.segments.head?

theorem Body.attached (h : Body s) : Attached s where
  handle p hp := (h.sized p hp).handle
  stored p hp := (h.sized p hp).stored.imp fun _ hf => hf.1
  paths := h.paths
  fresh := h.fresh
  nonempty := h.nonempty
  head_eq := h.head_eq

theorem trimmed_file (s : QState) (p : Ptr) : ((s.trimmed p).heap p).file = none := by
  show (Function.update s.heap p { s.heap p with file := none } p).file = none
  rw [Function.update_self]

section Trimmed

variable (hsegs : s.q.segments = p :: q :: ps)
include hsegs

theorem trimmed_segments : (s.trimmed p).q.segments = q :: ps := by
  show s.q.segments.tail = _
  rw [hsegs]
  rfl

/-- `trimHead`, executed on several segments. -/
theorem Attached.trimHead (h : Attached s) : Queue.trimHead s = .ok () (s.trimmed p) := by
  have hp : p ∈ s.q.segments := by
    rw [hsegs]
    exact List.mem_cons_self
  obtain ⟨off, ho⟩ := h.handle p hp
  obtain ⟨f, hf⟩ := h.stored p hp
  refine trimHead_eq ?_ ?_ ho hf
  · rw [hsegs]
    exact Nat.succ_lt_succ (Nat.succ_pos _)
  · rw [h.head_eq, hsegs]
    rfl

/-- The other segments and their files are as they were. -/
theorem Attached.trimmed_same (h : Attached s) {r : Ptr} (hr : r ∈ q :: ps) :
    r ∈ s.q.segments ∧ (s.trimmed p).heap r = s.heap r ∧
      (s.trimmed p).disk.entries.lookup (s.heap r).path = s.disk.entries.lookup (s.heap r).path := by
  have hnd := h.paths
  rw [hsegs, List.map_cons] at hnd
  have hpath : (s.heap r).path ≠ (s.heap p).path := fun he =>
    (List.nodup_cons.mp hnd).1 (he ▸ List.mem_map_of_mem hr)
  have hne : r ≠ p := by
    rintro rfl
    exact hpath rfl
  refine ⟨?_, Function.update_of_ne hne .., lookup_remove_ne _ hpath⟩
  rw [hsegs]
  exact List.mem_cons_of_mem p hr

/-- The segments that stay keep their handles. -/
theorem Attached.trimmed (h : Attached s) : Attached (s.trimmed p) := by
  have hrest := trimmed_segments hsegs
  refine ⟨fun r hr => ?_, fun r hr => ?_, ?_, fun r hr => ?_, ?_, rfl⟩
  · rw [hrest] at hr
    obtain ⟨hmem, hheap, -⟩ := h.trimmed_same hsegs hr
    rw [hheap]
    exact h.handle r hmem
  · rw [hrest] at hr
    obtain ⟨hmem, hheap, hfile⟩ := h.trimmed_same hsegs hr
    rw [hheap, Disk.file?_congr hfile]
    exact h.stored r hmem
  · rw [hrest, List.map_congr_left fun r hr => by rw [(h.trimmed_same hsegs hr).2.1]]
    have hnd := h.paths
    rw [hsegs, List.map_cons] at hnd
    exact (List.nodup_cons.mp hnd).2
  · rw [hrest] at hr
    exact h.fresh r (h.trimmed_same hsegs hr).1
  · rw [hrest]
    exact List.cons_ne_nil _ _

/-- **The first of several segments is dropped**, with its file. -/
theorem Body.trimmed (h : Body s) :
    Queue.trimHead s = .ok () (s.trimmed p) ∧ Body (s.trimmed p) := by
  have ha := h.attached
  have hrest := trimmed_segments hsegs
  have hat := ha.trimmed hsegs
  refine ⟨ha.trimHead hsegs, ⟨fun r hr => ?_, hat.paths, hat.fresh, fun r hr => ?_,
    fun name g hg hn => ?_, h.calm⟩, hat.nonempty, rfl⟩
  · rw [hrest] at hr
    obtain ⟨hmem, hheap, hfile⟩ := ha.trimmed_same hsegs hr
    rw [hheap]
    exact (h.sized r hmem).congr hfile
  · rw [hrest] at hr
    obtain ⟨hmem, hheap, -⟩ := ha.trimmed_same hsegs hr
    rw [hheap]
    exact h.numeric r hmem
  · have hne : name ≠ (s.heap p).path := by
      rintro rfl
      rw [show (s.trimmed p).disk = s.disk.remove (s.heap p).path from rfl,
        Disk.file?_remove_self] at hg
      cases hg
    have hold : s.disk.file? name = some g := by
      rw [← hg]
      exact (Disk.file?_remove_ne _ hne).symm
    obtain ⟨r, hr, hrn⟩ := h.owned name g hold hn
    rw [hsegs] at hr
    rcases List.mem_cons.mp hr with rfl | hr
    · exact absurd hrn.symm hne
    · exact ⟨r, by rw [hrest]; exact hr, by rw [(ha.trimmed_same hsegs hr).2.1, hrn]⟩

end Trimmed

/-- A stale tail stays stale, and the last segment stays the last. -/
theorem TailOK.trimmed (h : TailOK s) (hsegs : s.q.segments = p :: q :: ps) :
    TailOK (s.trimmed p) := by
  obtain ⟨r, hr, hlt, hlast | hclosed⟩ := h
  · refine ⟨r, hr, hlt, .inl ?_⟩
    show s.q.segments.tail.getLast? = some r
    rw [← hlast, hsegs, List.tail_cons, List.getLast?_cons_cons]
  · refine ⟨r, hr, hlt, .inr ?_⟩
    by_cases hrp : r = p
    · rw [hrp]
      exact trimmed_file s p
    · rw [show (s.trimmed p).heap r = s.heap r from Function.update_of_ne hrp ..]
      exact hclosed

end Body

/-! ## `Append` -/

section Methods

variable {s : QState} {p : Ptr} {b : Bytes}

theorem rolled_heap_next (l : Segment) (d : Disk) : (s.rolled l d).heap s.next = l :=
  Function.update_self ..

theorem rolled_heap_of_lt (l : Segment) (d : Disk) (hp : p < s.next) :
    (s.rolled l d).heap p = s.heap p := Function.update_of_ne (Nat.ne_of_lt hp) ..

/-- **`Append` on a queue whose tail is the last segment**: the queue is full; the tail takes the
    slice; the tail is full and a new segment takes it; or that does not either, and stays; or it
    cannot be made. -/
theorem Shape.append_cases (h : Shape s) (htail : s.q.tail = some p)
    (hlast : s.q.segments.getLast? = some p) (hroom : s.Roomy b) :
    (s.q.maxSize < s.usage + b.length ∧ Queue.append b s = .error .queueFull s) ∨
    (s.usage + b.length ≤ s.q.maxSize ∧ (s.heap p).size + b.length ≤ (s.heap p).maxSize ∧
      ∃ t, Queue.append b s = .ok () (s.put p t) ∧ Shape (s.put p t) ∧
        Frame { seg := s.heap p, disk := s.disk } t ∧
        t.seg.size = (s.heap p).size + (b.length + 8)) ∨
    (s.usage + b.length ≤ s.q.maxSize ∧ (s.heap p).maxSize < (s.heap p).size + b.length ∧
      NextFree s.disk ∧ footerSize + b.length ≤ s.q.maxSegmentSize ∧
      ∃ t, Queue.append b s = .ok () ((s.rolled s.newSegment s.newDisk).put s.next t) ∧
        Shape ((s.rolled s.newSegment s.newDisk).put s.next t) ∧
        Frame { seg := s.newSegment, disk := s.newDisk } t ∧
        t.seg.size = footerSize + (b.length + 8)) ∨
    (s.usage + b.length ≤ s.q.maxSize ∧ (s.heap p).maxSize < (s.heap p).size + b.length ∧
      NextFree s.disk ∧ s.q.maxSegmentSize < footerSize + b.length ∧
      Queue.append b s = .error .segmentFull (s.rolled s.newSegment s.newDisk)) ∨
    (s.Blocked ∧ Queue.append b s = .error (.os .isDir) s) := by
  by_cases hq : s.q.maxSize < s.usage + b.length
  · exact .inl ⟨hq, append_queueFull htail hq⟩
  have hq' : s.usage + b.length ≤ s.q.maxSize := by omega
  have hp : p ∈ s.q.segments := List.mem_of_getLast? hlast
  have hsized := h.sized p hp
  rcases Sized.append (s := { seg := s.heap p, disk := s.disk }) hsized h.calm
    (hroom.1 p htail) with ⟨hfit, t, he, hf, ht, hsize, hc⟩ | ⟨hfull, -⟩
  · exact .inr (.inl ⟨hq', hfit, t, append_stored htail hq' he, h.put hp hf ht hc, hf, hsize⟩)
  -- the tail is full, and the name of the next segment is free
  have hfree : NextFree s.disk := hroom.2.2 ⟨hq', p, htail, hfull⟩
  have hroll := h.toBody.rolled hfree
  have hnew := rolled_heap_next (s := s) s.newSegment s.newDisk
  have hmem : s.next ∈ (s.rolled s.newSegment s.newDisk).q.segments :=
    List.mem_append_right _ (List.mem_singleton_self _)
  have hroom' : HH.Roomy s.newSegment b := by
    intro hle
    have := hroom.2.1 hle
    show (footerSize : Int) + b.length + 8 ≤ maxOffset
    omega
  rw [append_full htail hq' hsized.file_ne_none hfull]
  by_cases hblocked : s.Blocked
  · exact .inr (.inr (.inr (.inr ⟨hblocked, bind_error (addSegment_blocked hblocked)⟩)))
  rw [append_rolled (addSegment_free h.calm hfree hblocked)]
  rcases Sized.append (s := { seg := s.newSegment, disk := s.newDisk }) (sized_newSegment s)
    (newDisk_calm h.calm) hroom' with ⟨hfit, t, he, hf, ht, hsize, hc⟩ | ⟨hfull', he⟩
  · refine .inr (.inr (.inl ⟨hq', hfull, hfree, hfit, t, ?_, hroll.put hmem ?_ ht hc, hf, hsize⟩))
    · refine call_ok ?_
      rw [hnew]
      exact he
    · rw [hnew]
      exact hf
  · refine .inr (.inr (.inr (.inl ⟨hq', hfull, hfree, hfull', ?_⟩)))
    set r := s.rolled s.newSegment s.newDisk with hr
    have hcall : Segment.append b ⟨r.heap s.next, r.disk⟩
        = .error .segmentFull ⟨r.heap s.next, r.disk⟩ := by
      rw [hnew]
      exact he
    rw [call_error hcall, QState.put, Function.update_eq_self]

/-- **`Append` on a queue with a stale tail drops the slice**, and says that it was stored. -/
theorem append_stale (htail : s.q.tail = some p) (hclosed : (s.heap p).file = none)
    (hq : s.usage + b.length ≤ s.q.maxSize) : Queue.append b s = .ok () s := by
  have hx : Segment.append b { seg := s.heap p, disk := s.disk }
      = .error .notOpen { seg := s.heap p, disk := s.disk } := by
    rw [Segment.append, bind_ok (Segment.self_eq _), if_pos hclosed]
    rfl
  have hput : s.put p { seg := s.heap p, disk := s.disk } = s := by
    rw [QState.put, Function.update_eq_self]
  rw [Queue.append, bind_ok (self_run s), htail]
  dsimp only
  rw [bind_ok (show Queue.diskUsage s = .ok s.usage s from rfl), if_neg (by omega),
    bind_ok (attempt_error (call_error hx)), hput]
  rfl

/-- `Append` keeps the shape, and the tail is the last segment if it was. -/
theorem Shape.append (h : Shape s) (hroom : s.Roomy b) :
    Shape (final (Queue.append b s)) ∧
      (Structured s → Structured (final (Queue.append b s))) := by
  obtain ⟨p, htail, -, hlast | hclosed⟩ := h.tail
  · rcases h.append_cases htail hlast hroom with ⟨-, he⟩ | ⟨-, -, t, he, hs, -⟩ |
      ⟨-, -, -, -, t, he, hs, -⟩ | ⟨-, -, hfree, -, he⟩ | ⟨-, he⟩
    · rw [he]
      exact ⟨h, id⟩
    · rw [he]
      exact ⟨hs, fun _ => hs.structured_iff.mpr (htail.trans hlast.symm)⟩
    · rw [he]
      exact ⟨hs, fun _ => hs.structured_iff.mpr List.getLast?_concat.symm⟩
    · rw [he]
      have hroll := h.toBody.rolled hfree
      exact ⟨hroll, fun _ => hroll.structured_iff.mpr List.getLast?_concat.symm⟩
    · rw [he]
      exact ⟨h, id⟩
  · by_cases hq : s.usage + b.length ≤ s.q.maxSize
    · rw [append_stale htail hclosed hq]
      exact ⟨h, id⟩
    · rw [append_queueFull htail (by omega)]
      exact ⟨h, id⟩

/-! ## The head -/

/-- There is a head. -/
theorem Shape.exists_head (h : Shape s) : ∃ p ps, s.q.segments = p :: ps ∧ s.q.head = some p := by
  obtain ⟨p, ps, hsegs⟩ := List.exists_cons_of_ne_nil h.nonempty
  exact ⟨p, ps, hsegs, by rw [h.head_eq, hsegs]; rfl⟩

/-- `trimHead` keeps the shape, and the tail is the last segment if it was. -/
theorem Shape.trimHead (h : Shape s) : ∃ s', Queue.trimHead s = .ok () s' ∧ Shape s' ∧
    (Structured s → Structured s') := by
  obtain ⟨p, ps, hsegs, -⟩ := h.exists_head
  cases ps with
  | nil => exact ⟨s, trimHead_single (by rw [hsegs]; exact Nat.le_refl 1), h, id⟩
  | cons q ps =>
    obtain ⟨he, hb⟩ := h.toBody.trimmed hsegs
    refine ⟨_, he, ⟨hb, h.tail.trimmed hsegs⟩, fun hst => hb.structured_iff.mpr ?_⟩
    show s.q.tail = s.q.segments.tail.getLast?
    rw [hst.tail_eq, hsegs, List.tail_cons, List.getLast?_cons_cons]

theorem Structured.put (hs : Structured s) {t : SegState} (hb : Body (s.put p t)) :
    Structured (s.put p t) := hb.structured_iff.mpr hs.tail_eq

/-- `Current` is a steady method of the head. -/
theorem Shape.current_eq (h : Shape s) : ∃ p ∈ s.q.segments, ∃ t,
    Steady { seg := s.heap p, disk := s.disk } t ∧ final (Queue.current s) = s.put p t := by
  obtain ⟨p, ps, hsegs, hhead⟩ := h.exists_head
  have hp : p ∈ s.q.segments := by
    rw [hsegs]
    exact List.mem_cons_self
  refine ⟨p, hp, _,
    Sized.current (s := { seg := s.heap p, disk := s.disk }) (h.sized p hp) h.calm, ?_⟩
  rw [current_eq_call hhead, final_call]

/-- `Current` keeps the shape. -/
theorem Shape.current (h : Shape s) : Shape (final (Queue.current s)) ∧
    (Structured s → Structured (final (Queue.current s))) := by
  obtain ⟨p, hp, t, ht, he⟩ := h.current_eq
  have hs := h.steady hp ht
  rw [he]
  exact ⟨hs, fun hst => hst.put hs.toBody⟩

/-- `Advance` is a steady method of the head, and `trimHead` when that is at its end. -/
theorem Shape.advance_eq (h : Shape s) : ∃ p ∈ s.q.segments, ∃ t,
    Steady { seg := s.heap p, disk := s.disk } t ∧
      (final (Queue.advance s) = s.put p t ∨
        final (Queue.advance s) = final (Queue.trimHead (s.put p t))) := by
  obtain ⟨p, ps, hsegs, hhead⟩ := h.exists_head
  have hp : p ∈ s.q.segments := by
    rw [hsegs]
    exact List.mem_cons_self
  refine ⟨p, hp, _,
    Sized.advance (s := { seg := s.heap p, disk := s.disk }) (h.sized p hp) h.calm, ?_⟩
  rw [Queue.advance, bind_ok (self_run s), hhead]
  dsimp only
  cases he : Segment.advance { seg := s.heap p, disk := s.disk } with
  | ok u t =>
    rw [bind_ok (attempt_ok (call_ok he))]
    exact .inl rfl
  | error e t =>
    rw [bind_ok (attempt_error (call_error he))]
    cases e with
    | eof => exact .inr rfl
    | notOpen | queueFull | segmentFull | badSeek | shortWrite | badRead | recordSize | queueOpen
    | os | panicked | unfinished => exact .inl rfl

/-- `Advance` keeps the shape, and the tail is the last segment if it was. -/
theorem Shape.advance (h : Shape s) : Shape (final (Queue.advance s)) ∧
    (Structured s → Structured (final (Queue.advance s))) := by
  obtain ⟨p, hp, t, ht, he⟩ := h.advance_eq
  have hs := h.steady hp ht
  rcases he with he | he
  · rw [he]
    exact ⟨hs, fun hst => hst.put hs.toBody⟩
  · obtain ⟨s', htrim, hs', hst'⟩ := hs.trimHead
    rw [he, htrim]
    exact ⟨hs', fun hst => hst' (hst.put hs.toBody)⟩

/-! ## `SetMaxSegmentSize` -/

/-- The limits are not part of the shape. -/
theorem Body.limited (h : Body s) (size : Int) (ps : List Ptr) (m : Int) :
    Body { s.limited size ps with q := { s.q with maxSegmentSize := m } } := by
  refine ⟨⟨fun p hp => ?_, ?_, h.fresh, fun p hp => ?_, fun name f hf hn => ?_, h.calm⟩,
    h.nonempty, h.head_eq⟩
  · show Sized ((s.limited size ps).heap p) s.disk
    simp only [QState.limited]
    split
    · exact (h.sized p hp).limit size
    · exact h.sized p hp
  · simp only [limited_path]
    exact h.paths
  · show parseUint ((s.limited size ps).heap p).path ≠ none
    rw [limited_path]
    exact h.numeric p hp
  · obtain ⟨p, hp, hpn⟩ := h.owned name f hf hn
    exact ⟨p, hp, (limited_path s size ps p).trans hpn⟩

theorem limited_file (s : QState) (size : Int) (ps : List Ptr) (p : Ptr) :
    ((s.limited size ps).heap p).file = (s.heap p).file := by
  simp only [QState.limited]
  split <;> rfl

/-- The state in which `SetMaxSegmentSize` has set the limits. -/
def QState.resized (s : QState) (size : Int) : QState :=
  { s.limited size s.q.segments with q := { s.q with maxSegmentSize := size } }

/-- **`SetMaxSegmentSize`** sets the limits, and puts a new segment behind a tail that reaches the
    new one, if it can be made. -/
theorem setMaxSegmentSize_cases (hc : s.disk.script = []) (htail : s.q.tail = some p) {size : Int}
    (hfree : s.Resizable size) :
    (size ≤ (s.heap p).size ∧ NextFree s.disk ∧ Queue.setMaxSegmentSize size s
      = .ok () ((s.resized size).rolled (s.resized size).newSegment (s.resized size).newDisk)) ∨
    (size ≤ (s.heap p).size ∧ (s.resized size).Blocked ∧
      Queue.setMaxSegmentSize size s = .error (.os .isDir) (s.resized size)) ∨
    ((s.heap p).size < size ∧ Queue.setMaxSegmentSize size s = .ok () (s.resized size)) := by
  rw [setMaxSegmentSize_run htail, limited_size, ← QState.resized]
  by_cases hle : size ≤ (s.heap p).size
  · have hnext : NextFree s.disk := hfree ⟨p, htail, hle⟩
    rw [if_pos hle]
    by_cases hblocked : (s.resized size).Blocked
    · exact .inr (.inl ⟨hle, hblocked, bind_error (addSegment_blocked hblocked)⟩)
    · refine .inl ⟨hle, hnext, ?_⟩
      rw [bind_ok (addSegment_free (s := s.resized size) hc hnext hblocked), assign_run]
      rfl
  · rw [if_neg hle]
    exact .inr (.inr ⟨by omega, rfl⟩)

/-- `SetMaxSegmentSize` keeps the shape, and the tail is the last segment if it was. -/
theorem Shape.setMaxSegmentSize (h : Shape s) {size : Int} (hfree : s.Resizable size) :
    Shape (final (Queue.setMaxSegmentSize size s)) ∧
      (Structured s → Structured (final (Queue.setMaxSegmentSize size s))) := by
  obtain ⟨p, htail, hlt, hcase⟩ := h.tail
  have hb : Body (s.resized size) := h.toBody.limited size s.q.segments size
  have hkeep : Shape (s.resized size) ∧ (Structured s → Structured (s.resized size)) := by
    refine ⟨⟨hb, p, htail, hlt, ?_⟩, fun hst => hb.structured_iff.mpr hst.tail_eq⟩
    exact hcase.imp_right fun hclosed => (limited_file s size s.q.segments p).trans hclosed
  rcases setMaxSegmentSize_cases h.calm htail hfree with ⟨-, hnext, he⟩ | ⟨-, -, he⟩ | ⟨-, he⟩
  · rw [he]
    have hroll := hb.rolled hnext
    exact ⟨hroll, fun _ => hroll.structured_iff.mpr List.getLast?_concat.symm⟩
  · rw [he]
    exact hkeep
  · rw [he]
    exact hkeep

/-! ## The clock -/

/-- Time alone changes nothing. -/
theorem Shape.tick (h : Shape s) (t : Time) : Shape { s with disk := s.disk.at t } :=
  ⟨⟨⟨fun p hp => ⟨(h.sized p hp).handle, (h.sized p hp).stored⟩, h.paths, h.fresh, h.numeric,
    h.owned, h.calm⟩, h.nonempty, h.head_eq⟩, h.tail⟩

end Methods

/-! ## `Open` -/

/-- What opening files leaves alone: the queue, the segments there were, and every file but the
    numeric ones that are empty. -/
structure Opens (s s' : QState) : Prop where
  q_eq : s'.q = s.q
  next_le : s.next ≤ s'.next
  heap_eq : ∀ p, p < s.next → s'.heap p = s.heap p
  calm : s'.disk.script = []
  files : ∀ name, s'.disk.entries.lookup name = s.disk.entries.lookup name ∨
    parseUint name ≠ none ∧ (∃ f, s.disk.file? name = some f ∧ f.data = []) ∧
      ∃ g, s'.disk.file? name = some g

theorem Opens.refl {s : QState} (hc : s.disk.script = []) : Opens s s :=
  ⟨rfl, Nat.le_refl _, fun _ _ => rfl, hc, fun _ => .inl rfl⟩

/-- Loading segments makes no file and loses none. -/
theorem Opens.file_iff {s s' : QState} (h : Opens s s') (name : FileName) :
    (∃ f, s'.disk.file? name = some f) ↔ ∃ f, s.disk.file? name = some f := by
  rcases h.files name with hsame | ⟨-, ⟨f, hf, -⟩, hg⟩
  · rw [Disk.file?_congr hsame]
  · exact iff_of_true hg ⟨f, hf⟩

/-- A file that is not empty stays what it is. -/
theorem Opens.lookup_eq {s s' : QState} (h : Opens s s') {name : FileName}
    (hf : ∀ f, parseUint name ≠ none → s.disk.file? name = some f → f.data ≠ []) :
    s'.disk.entries.lookup name = s.disk.entries.lookup name := by
  rcases h.files name with hsame | ⟨hn, ⟨f, hf', hempty⟩, -⟩
  · exact hsame
  · exact absurd hempty (hf f hn hf')

/-- One segment after the other. -/
theorem Opens.trans {s t u : QState} (h : Opens s t) (h' : Opens t u) : Opens s u := by
  refine ⟨h'.q_eq.trans h.q_eq, Nat.le_trans h.next_le h'.next_le,
    fun p hp => (h'.heap_eq p (Nat.lt_of_lt_of_le hp h.next_le)).trans (h.heap_eq p hp), h'.calm,
    fun name => ?_⟩
  rcases h.files name with hsame | ⟨hn, hempty, hg⟩
  · rcases h'.files name with hsame' | ⟨hn, ⟨f, hf, hempty⟩, hg⟩
    · exact .inl (hsame'.trans hsame)
    · refine .inr ⟨hn, ⟨f, ?_, hempty⟩, hg⟩
      rw [← hf]
      exact (Disk.file?_congr hsame).symm
  · exact .inr ⟨hn, hempty, (h'.file_iff name).mpr hg⟩

section Open

variable {s : QState}

/-- Opening one file. -/
theorem newSegmentPtr_shape {name : FileName} {f : File} (m : Int)
    (hf : s.disk.file? name = some f) (hn : parseUint name ≠ none) (hc : s.disk.script = []) :
    (∃ s', newSegmentPtr name m s = .ok s.next s' ∧ Opens s s' ∧ s.next < s'.next ∧
      Sized (s'.heap s.next) s'.disk ∧ (s'.heap s.next).path = name) ∨
    ∃ e s', newSegmentPtr name m s = .error e s' ∧ Opens s s' := by
  rcases newSegment_sized m hf hc with ⟨l, d', he, hl, hp, -, hel, hc', hsame⟩ |
    ⟨e, d', he, hentries, -, hc'⟩
  · refine .inl ⟨{ s with heap := Function.update s.heap s.next l, next := s.next + 1, disk := d' },
      ?_, ⟨rfl, Nat.le_succ _, fun p hp => ?_, hc', fun other => ?_⟩, Nat.lt_succ_self _, ?_, ?_⟩
    · rw [newSegmentPtr, he]
    · exact Function.update_of_ne (Nat.ne_of_lt hp) ..
    · by_cases hother : other = name
      · by_cases hempty : f.data = []
        · obtain ⟨g, hg, -⟩ := hl.stored
          rw [hp] at hg
          rw [hother]
          exact .inr ⟨hn, ⟨f, hf, hempty⟩, g, hg⟩
        · exact .inl (by rw [hsame hempty])
      · exact .inl (hel.others other hother)
    · simp only [Function.update_self]
      exact hl
    · simp only [Function.update_self]
      exact hp
  · refine .inr ⟨e, { s with disk := d' }, ?_, rfl, Nat.le_refl _, fun _ _ => rfl, hc',
      fun other => .inl (by rw [hentries])⟩
    rw [newSegmentPtr, he]

/-- **The loop of `loadSegments`**, by induction on the entries still to be looked at: a segment for
    every numeric file, or an error; in both cases only empty files were written. -/
theorem loadEntries_shape (m : Int) (files : List (FileName × Entry)) :
    ∀ s : QState, s.disk.script = [] →
      (∀ e ∈ files, segmentID e ≠ none →
        (∃ f, s.disk.file? e.1 = some f) ∧ parseUint e.1 ≠ none) →
      (∃ ps s', Queue.loadEntries m files s = .ok ps s' ∧ Opens s s' ∧
        (∀ p ∈ ps, s.next ≤ p ∧ p < s'.next ∧ Sized (s'.heap p) s'.disk) ∧
        (ps.map fun p => (s'.heap p).path) = segmentNames files) ∨
      ∃ e s', Queue.loadEntries m files s = .error e s' ∧ Opens s s' := by
  induction files with
  | nil =>
    exact fun s hc _ => .inl ⟨[], s, rfl, Opens.refl hc, fun p hp => absurd hp List.not_mem_nil, rfl⟩
  | cons e files ih =>
    intro s hc hfiles
    rw [Queue.loadEntries]
    cases hid : segmentID e with
    | none =>
      rw [segmentNames_cons_none hid]
      exact ih s hc fun x hx => hfiles x (List.mem_cons_of_mem e hx)
    | some n =>
      dsimp only
      rw [segmentNames_cons_some hid]
      obtain ⟨⟨f, hf⟩, hn⟩ := hfiles e List.mem_cons_self (by rw [hid]; exact Option.some_ne_none n)
      rcases newSegmentPtr_shape m hf hn hc with ⟨s₁, he, ho, hlt, hl, hp⟩ | ⟨err, s₁, he, ho⟩
      · rw [bind_ok he]
        have hfiles₁ : ∀ x ∈ files, segmentID x ≠ none →
            (∃ f, s₁.disk.file? x.1 = some f) ∧ parseUint x.1 ≠ none := fun x hx hxid =>
          ⟨(ho.file_iff x.1).mpr (hfiles x (List.mem_cons_of_mem e hx) hxid).1,
            (hfiles x (List.mem_cons_of_mem e hx) hxid).2⟩
        rcases ih s₁ ho.calm hfiles₁ with ⟨ps, s', he', ho', hps, hpaths⟩ | ⟨err, s', he', ho'⟩
        · have hheap : s'.heap s.next = s₁.heap s.next := ho'.heap_eq _ hlt
          refine .inl ⟨s.next :: ps, s', by rw [bind_ok he']; rfl, ho.trans ho', fun p hp' => ?_, ?_⟩
          · rcases List.mem_cons.mp hp' with rfl | hp'
            · refine ⟨Nat.le_refl _, Nat.lt_of_lt_of_le hlt ho'.next_le, ?_⟩
              rw [hheap]
              refine hl.congr (ho'.lookup_eq fun g _ hg hempty => ?_)
              -- the file has a footer by now
              obtain ⟨g', hg', -, hlen⟩ := hl.stored
              rw [hg] at hg'
              cases hg'
              rw [hempty] at hlen
              exact absurd hlen (by decide)
            · obtain ⟨hle, hlt', hsized⟩ := hps p hp'
              exact ⟨Nat.le_trans ho.next_le hle, hlt', hsized⟩
          · rw [List.map_cons, hpaths, hheap, hp]
        · exact .inr ⟨err, s', by rw [bind_error he'], ho.trans ho'⟩
      · exact .inr ⟨err, s₁, by rw [bind_error he], ho⟩

/-- The state in which `Open` has set head and tail. -/
def QState.ended (s : QState) : QState :=
  { s with q := { s.q with head := s.q.segments.head?, tail := s.q.segments.getLast? } }

/-- With head and tail put at their ends. -/
theorem Members.ended (h : Members s) (hne : s.q.segments ≠ []) :
    Shape s.ended ∧ Structured s.ended := by
  have hlast : s.q.segments.getLast? = some (s.q.segments.getLast hne) :=
    List.getLast?_eq_some_getLast hne
  have hshape : Shape s.ended :=
    ⟨⟨⟨h.sized, h.paths, h.fresh, h.numeric, h.owned, h.calm⟩, hne, rfl⟩,
      s.q.segments.getLast hne, hlast, h.fresh _ (List.getLast_mem hne), .inl hlast⟩
  exact ⟨hshape, hshape.structured_iff.mpr rfl⟩

/-- The end of `Open` is a steady method of the head, and `trimHead` when that has nothing left. -/
theorem Shape.openEnds_eq (h : Shape s.ended) : ∃ p ∈ s.q.segments, ∃ t,
    Steady { seg := s.heap p, disk := s.disk } t ∧
      (Queue.openEnds s = .ok () (s.ended.put p t) ∨
        Queue.openEnds s = Queue.trimHead (s.ended.put p t)) := by
  obtain ⟨p, ps, hsegs, hhead⟩ := h.exists_head
  have hp : p ∈ s.ended.q.segments := by
    rw [hsegs]
    exact List.mem_cons_self
  have hderef : deref s.ended.q.head s.ended = .ok p s.ended := by
    rw [hhead]
    rfl
  refine ⟨p, hp, _,
    Sized.current (s := { seg := s.heap p, disk := s.disk }) (h.sized p hp) h.calm, ?_⟩
  rw [Queue.openEnds, bind_ok (assign_run _ _), bind_ok (self_run _), ← QState.ended,
    bind_ok hderef]
  cases he : Segment.current { seg := s.heap p, disk := s.disk } with
  | ok b t =>
    rw [bind_ok (attempt_ok (call_ok (s := s.ended) he))]
    exact .inl rfl
  | error e t =>
    rw [bind_ok (attempt_error (call_error (s := s.ended) he))]
    cases e with
    | eof => exact .inr rfl
    | notOpen | queueFull | segmentFull | badSeek | shortWrite | badRead | recordSize | queueOpen
    | os | panicked | unfinished => exact .inl rfl

/-- The end of `Open`: head and tail are set, and a first segment with nothing left is dropped. -/
theorem Members.openEnds (h : Members s) (hne : s.q.segments ≠ []) :
    ∃ s', Queue.openEnds s = .ok () s' ∧ Shape s' ∧ Structured s' := by
  obtain ⟨hshape, hst⟩ := h.ended hne
  obtain ⟨p, hp, t, ht, he⟩ := hshape.openEnds_eq
  have hs : Shape (s.ended.put p t) := hshape.steady (p := p) hp ht
  rcases he with he | he
  · exact ⟨_, he, hs, hst.put hs.toBody⟩
  · obtain ⟨s', htrim, hs', hst'⟩ := hs.trimHead
    exact ⟨s', he.trans htrim, hs', hst' (hst.put hs.toBody)⟩

/-- **`Open`** on any directory gives a queue as one would expect, or fails and has written to
    nothing but empty files; or there were no segments, and one could not be made. -/
theorem openQueue_shape (hc : s.disk.script = []) :
    (∃ s', Queue.openQueue s = .ok () s' ∧ Shape s' ∧ Structured s') ∨
    (∃ e s', Queue.openQueue s = .error e s' ∧ Opens s s') ∨
    ((∀ name f, s.disk.file? name = some f → parseUint name = none) ∧
      ∃ e s', Queue.openQueue s = .error e s') := by
  have hfiles : ∀ e ∈ s.disk.readDir, segmentID e ≠ none →
      (∃ f, s.disk.file? e.1 = some f) ∧ parseUint e.1 ≠ none := fun e he hid =>
    mem_segmentNames.mp (List.mem_map.mpr
      ⟨e, List.mem_filter.mpr ⟨he, Option.ne_none_iff_isSome.mp hid⟩, rfl⟩)
  rw [Queue.openQueue]
  rcases loadEntries_shape s.q.maxSegmentSize s.disk.readDir s hc hfiles with
    ⟨ps, s₁, he, ho, hps, hpaths⟩ | ⟨e, s₁, he, ho⟩
  · have hmem : ∀ name, name ∈ segmentNames s.disk.readDir ↔
        ∃ p ∈ ps, (s₁.heap p).path = name := fun name => by rw [← hpaths, List.mem_map]
    set s₂ : QState := { s₁ with q := { s₁.q with segments := ps } } with hs₂
    have hmembers : Members s₂ := by
      refine ⟨fun p hp => (hps p hp).2.2, ?_, fun p hp => (hps p hp).2.1, fun p hp => ?_,
        fun name f hf hn => ?_, ho.calm⟩
      · show (ps.map fun p => (s₁.heap p).path).Nodup
        rw [hpaths]
        exact segmentNames_nodup s.disk
      · exact (mem_segmentNames.mp ((hmem _).mpr ⟨p, hp, rfl⟩)).2
      · exact (hmem name).mp (mem_segmentNames.mpr ⟨(ho.file_iff name).mp ⟨f, hf⟩, hn⟩)
    rw [bind_ok (show Queue.loadSegments s = .ok ps s₁ from he), bind_ok (assign_run _ _)]
    by_cases hnil : ps = []
    · rw [if_pos hnil]
      by_cases hblocked : s₂.Blocked
      · refine .inr (.inr ⟨fun name f hf => ?_, .os .isDir, s₂,
          bind_error (addSegment_blocked hblocked)⟩)
        by_contra hn
        obtain ⟨p, hp, -⟩ := (hmem name).mp (mem_segmentNames.mpr ⟨⟨f, hf⟩, hn⟩)
        rw [hnil] at hp
        cases hp
      have hfree : NextFree s₂.disk := hmembers.nextFree_of_le_one (by
        show ps.length ≤ 1
        rw [hnil]
        exact Nat.zero_le 1)
      obtain ⟨s', hends, hs', hst'⟩ := (hmembers.added hfree).openEnds
        (List.append_ne_nil_of_right_ne_nil _ (List.cons_ne_nil _ _))
      refine .inl ⟨s', ?_, hs', hst'⟩
      exact (bind_ok (addSegment_free hmembers.calm hfree hblocked)).trans hends
    · rw [if_neg hnil]
      obtain ⟨s', hends, hs', hst'⟩ := hmembers.openEnds hnil
      exact .inl ⟨s', hends, hs', hst'⟩
  · refine .inr (.inl ⟨e, s₁, ?_, ho⟩)
    rw [bind_error (show Queue.loadSegments s = .error e s₁ from he)]

/-- **What `Open` leaves.** -/
theorem shape_of_openQueue {s' : QState} (hc : s.disk.script = [])
    (hopen : Queue.openQueue s = .ok () s') : Shape s' ∧ Structured s' := by
  rcases openQueue_shape hc with ⟨s₁, he, hshape⟩ | ⟨e, s₁, he, -⟩ | ⟨-, e, s₁, he⟩
  · cases hopen.symm.trans he
    exact hshape
  · cases hopen.symm.trans he
  · cases hopen.symm.trans he

/-- A failed `Open` leaves an open queue as it is: its files are not empty. -/
theorem Shape.opens {s' : QState} (h : Shape s) (ho : Opens s s') :
    Shape s' ∧ (Structured s → Structured s') := by
  have hentries : ∀ name, s'.disk.entries.lookup name = s.disk.entries.lookup name := by
    intro name
    refine ho.lookup_eq fun f hn hf hempty => ?_
    obtain ⟨p, hp, rfl⟩ := h.owned name f hf hn
    obtain ⟨g, hg, -, hlen⟩ := (h.sized p hp).stored
    rw [hf] at hg
    cases hg
    rw [hempty] at hlen
    exact absurd hlen (by decide)
  have hheap : ∀ p ∈ s.q.segments, s'.heap p = s.heap p := fun p hp => ho.heap_eq p (h.fresh p hp)
  have hb : Body s' := by
    refine ⟨⟨fun p hp => ?_, ?_, fun p hp => ?_, fun p hp => ?_, fun name f hf hn => ?_, ho.calm⟩,
      ?_, ?_⟩
    · rw [ho.q_eq] at hp
      rw [hheap p hp]
      exact (h.sized p hp).congr (hentries _)
    · rw [ho.q_eq, List.map_congr_left fun p hp => by rw [hheap p hp]]
      exact h.paths
    · rw [ho.q_eq] at hp
      exact Nat.lt_of_lt_of_le (h.fresh p hp) ho.next_le
    · rw [ho.q_eq] at hp
      rw [hheap p hp]
      exact h.numeric p hp
    · rw [Disk.file?_congr (hentries name)] at hf
      obtain ⟨p, hp, hpn⟩ := h.owned name f hf hn
      exact ⟨p, by rw [ho.q_eq]; exact hp, by rw [hheap p hp, hpn]⟩
    · rw [ho.q_eq]
      exact h.nonempty
    · rw [ho.q_eq]
      exact h.head_eq
  obtain ⟨p, htail, hlt, hcase⟩ := h.tail
  refine ⟨⟨hb, p, ?_, Nat.lt_of_lt_of_le hlt ho.next_le, ?_⟩, fun hst => hb.structured_iff.mpr ?_⟩
  · rw [ho.q_eq, htail]
  · rw [ho.q_eq, ho.heap_eq p hlt]
    exact hcase
  · rw [ho.q_eq]
    exact hst.tail_eq

/-- `Open` on an open queue keeps the shape, and the tail is the last segment if it was. -/
theorem Shape.openQueue (h : Shape s) : Shape (final (Queue.openQueue s)) ∧
    (Structured s → Structured (final (Queue.openQueue s))) := by
  rcases openQueue_shape h.calm with ⟨s', he, hs', hst'⟩ | ⟨e, s', he, ho⟩ | ⟨hnone, -⟩
  · rw [he]
    exact ⟨hs', fun _ => hst'⟩
  · rw [he]
    exact h.opens ho
  · -- there is a segment, and its file
    obtain ⟨p, ps, hsegs, -⟩ := h.exists_head
    have hp : p ∈ s.q.segments := by
      rw [hsegs]
      exact List.mem_cons_self
    obtain ⟨f, hf, -⟩ := (h.sized p hp).stored
    exact absurd (hnone _ f hf) (h.numeric p hp)

end Open

end InfluxCluster.HH
