/-
  What the methods of the queue do to its chain of segments.

  `Rep R s chain` connects the pointers of a queue with the abstract queue of `Lib.Log`: `chain`
  lists the pointers of `l.segments`, each with the log its segment stands for; `l.head` and
  `l.tail` are the first and the last of them; the files have different names; and each segment
  satisfies `R` for its log.  `R` is left open because two of them are needed — `Clean`, which the
  methods keep as long as nothing fails, and a weaker one for the runs in which something does —
  and all that is used of it is `Layout R`: it implies the layout, and it is about the segment's own
  file.

  A method of one segment changes one entry of the chain (`Rep.update`), `addSegment` puts an empty
  log behind it (`addSegment_cases`, `Rep.rolled`), `trimHead` drops the first entry
  (`trimHead_rep`).  With that the queue's own methods are the moves of an abstract queue:
  `append` is `pushLast`, after a `roll` if the tail is full; `advance` is `Chain.advance`;
  `current` looks at the first log; `setMaxSegmentSize` changes nothing or rolls.
-/
import InfluxCluster.HH.Queue
import InfluxCluster.HH.SegmentFaults

namespace InfluxCluster.HH

open InfluxCluster.Lib

/-! ## Calls -/

@[simp] theorem put_disk (s : QState) (p : Ptr) (t : SegState) : (s.put p t).disk = t.disk := rfl

@[simp] theorem put_heap_self (s : QState) (p : Ptr) (t : SegState) :
    (s.put p t).heap p = t.seg := Function.update_self ..

/-- The other segments are as before. -/
theorem put_heap_ne (s : QState) {p p' : Ptr} (t : SegState) (h : p' ≠ p) :
    (s.put p t).heap p' = s.heap p' := Function.update_of_ne h ..

section Calls

variable {α : Type} {s s' : QState}

/-- A method of a segment, run on the queue's heap and disk. -/
theorem call_ok {p : Ptr} {x : SegM α} {a : α} {t : SegState}
    (h : x { seg := s.heap p, disk := s.disk } = .ok a t) : call p x s = .ok a (s.put p t) := by
  rw [call, h]

/-- With an error, what it did up to there stays. -/
theorem call_error {p : Ptr} {x : SegM α} {e : Err} {t : SegState}
    (h : x { seg := s.heap p, disk := s.disk } = .error e t) :
    call p x s = .error e (s.put p t) := by
  rw [call, h]

/-- In either case. -/
theorem final_call (p : Ptr) (x : SegM α) :
    final (call p x s) = s.put p (final (x { seg := s.heap p, disk := s.disk })) := by
  rw [call]
  cases x { seg := s.heap p, disk := s.disk } with
  | ok a t => rfl
  | error e t => rfl

theorem attempt_ok {x : QM α} {a : α} (h : x s = .ok a s') : attempt x s = .ok (.ok a) s' := by
  rw [attempt, h]

theorem attempt_error {x : QM α} {e : Err} (h : x s = .error e s') :
    attempt x s = .ok (.error e) s' := by
  rw [attempt, h]

/-- An error that is caught leaves what the call left. -/
theorem keeps_attempt {I : QState → Prop} {x : QM α} (h : Keeps I x) : Keeps I (attempt x) := by
  refine keeps_iff.mpr fun s hs => ?_
  have hfinal := keeps_iff.mp h s hs
  rw [attempt]
  cases hx : x s with
  | ok a t => rw [hx] at hfinal; exact hfinal
  | error e t => rw [hx] at hfinal; exact hfinal

theorem self_run (s : QState) : self s = .ok s.q s := rfl

theorem assign_run (f : Queue → Queue) (s : QState) :
    assign f s = .ok () { s with q := f s.q } := rfl

end Calls

/-! ## The chain of a queue -/

/-- A relation between a segment and the log it stands for: it implies the layout, it is about the
    segment's own file, and the limit of the segment plays no part in it. -/
structure Layout (R : Segment → Disk → Log Bytes → Prop) : Prop where
  holds : ∀ {l d log}, R l d log → ∃ j, Holds l d log j
  congr : ∀ {l d d' log}, R l d log →
    d'.entries.lookup l.path = d.entries.lookup l.path → R l d' log
  limit : ∀ {l d log} (m : Int), R l d log → R { l with maxSize := m } d log
  ofClean : ∀ {l d log}, Clean l d log → R l d log

/-- A clean segment is a layout of its log. -/
theorem layout_clean : Layout Clean where
  holds h := ⟨_, h.toHolds⟩
  congr h hd := ⟨h.toHolds.congr hd, h.cur_eq, h.nonempty⟩
  limit _ h := ⟨⟨h.handle, h.footer_le, h.stored, h.pos_eq, h.size_eq, h.fits⟩, h.cur_eq, h.nonempty⟩
  ofClean h := h

/-- The segments of a chain: each stands for its log, in a file of its own. -/
structure Linked (R : Segment → Disk → Log Bytes → Prop) (s : QState)
    (chain : List (Ptr × Log Bytes)) : Prop where
  holds : ∀ c ∈ chain, R (s.heap c.1) s.disk c.2
  paths : (chain.map fun c => (s.heap c.1).path).Nodup
  fresh : ∀ c ∈ chain, c.1 < s.next

/-- **The queue holds the chain**: its segments are those of the chain, and head and tail are the
    first and the last. -/
structure Rep (R : Segment → Disk → Log Bytes → Prop) (s : QState)
    (chain : List (Ptr × Log Bytes)) : Prop extends Linked R s chain where
  segments_eq : s.q.segments = chain.map Prod.fst
  head_eq : s.q.head = (chain.map Prod.fst).head?
  tail_eq : s.q.tail = (chain.map Prod.fst).getLast?

/-- The logs of a chain. -/
def logs (chain : List (Ptr × Log Bytes)) : List (Log Bytes) := chain.map Prod.snd

section Chain

variable {R : Segment → Disk → Log Bytes → Prop} {s s' : QState}
  {cs ds : List (Ptr × Log Bytes)} {c : Ptr × Log Bytes}

/-- What happens elsewhere on disk and in the heap does not matter. -/
theorem Linked.of_agree (hR : Layout R) (h : Linked R s cs)
    (hheap : ∀ c ∈ cs, s'.heap c.1 = s.heap c.1)
    (hdisk : ∀ c ∈ cs,
      s'.disk.entries.lookup (s.heap c.1).path = s.disk.entries.lookup (s.heap c.1).path)
    (hnext : s.next ≤ s'.next) : Linked R s' cs := by
  refine ⟨?_, ?_, fun c hc => Nat.lt_of_lt_of_le (h.fresh c hc) hnext⟩
  · intro c hc
    rw [hheap c hc]
    exact hR.congr (h.holds c hc) (hdisk c hc)
  · have hpaths : cs.map (fun c => (s'.heap c.1).path) = cs.map (fun c => (s.heap c.1).path) :=
      List.map_congr_left fun c hc => by rw [hheap c hc]
    rw [hpaths]
    exact h.paths

theorem Linked.nil : Linked R s [] :=
  ⟨fun _ h => absurd h List.not_mem_nil, List.nodup_nil, fun _ h => absurd h List.not_mem_nil⟩

/-- Two chains with different files are one chain. -/
theorem Linked.append (h : Linked R s cs) (h' : Linked R s ds)
    (hne : ∀ c ∈ cs, ∀ d ∈ ds, (s.heap c.1).path ≠ (s.heap d.1).path) : Linked R s (cs ++ ds) := by
  refine ⟨?_, ?_, ?_⟩
  · intro c hc
    rcases List.mem_append.mp hc with hc | hc
    · exact h.holds c hc
    · exact h'.holds c hc
  · rw [List.map_append]
    refine List.nodup_append.mpr ⟨h.paths, h'.paths, ?_⟩
    intro a ha b hb
    obtain ⟨c, hc, rfl⟩ := List.mem_map.mp ha
    obtain ⟨d, hd, rfl⟩ := List.mem_map.mp hb
    exact hne c hc d hd
  · intro c hc
    rcases List.mem_append.mp hc with hc | hc
    · exact h.fresh c hc
    · exact h'.fresh c hc

theorem Linked.left (h : Linked R s (cs ++ ds)) : Linked R s cs := by
  refine ⟨fun c hc => h.holds c (List.mem_append_left ds hc), ?_,
    fun c hc => h.fresh c (List.mem_append_left ds hc)⟩
  have hp := h.paths
  rw [List.map_append] at hp
  exact (List.nodup_append.mp hp).1

theorem Linked.right (h : Linked R s (cs ++ ds)) : Linked R s ds := by
  refine ⟨fun c hc => h.holds c (List.mem_append_right cs hc), ?_,
    fun c hc => h.fresh c (List.mem_append_right cs hc)⟩
  have hp := h.paths
  rw [List.map_append] at hp
  exact (List.nodup_append.mp hp).2.1

/-- Different places of the chain have different files. -/
theorem Linked.disjoint (h : Linked R s (cs ++ ds)) {c d : Ptr × Log Bytes} (hc : c ∈ cs)
    (hd : d ∈ ds) : (s.heap c.1).path ≠ (s.heap d.1).path := by
  have hp := h.paths
  rw [List.map_append] at hp
  exact (List.nodup_append.mp hp).2.2 _ (List.mem_map_of_mem hc) _ (List.mem_map_of_mem hd)

/-- A method of a segment changes no path. -/
theorem put_path {p : Ptr} {t : SegState} (hf : Frame { seg := s.heap p, disk := s.disk } t)
    (q : Ptr) : ((s.put p t).heap q).path = (s.heap q).path := by
  by_cases hq : q = p
  · rw [hq, put_heap_self]
    exact hf.path_eq
  · rw [put_heap_ne s t hq]

/-- A method of one segment leaves the segments with other files alone. -/
theorem Linked.put_other (hR : Layout R) (h : Linked R s cs) {p : Ptr} {t : SegState}
    (hf : Frame { seg := s.heap p, disk := s.disk } t)
    (hne : ∀ c ∈ cs, (s.heap c.1).path ≠ (s.heap p).path) : Linked R (s.put p t) cs := by
  refine h.of_agree hR ?_ ?_ (Nat.le_refl _)
  · intro c hc
    refine put_heap_ne s t fun hcp => hne c hc ?_
    rw [hcp]
  · intro c hc
    exact hf.others _ (hne c hc)

/-- **A method of one segment changes one entry of the chain.** -/
theorem Linked.update (hR : Layout R) (h : Linked R s (cs ++ c :: ds)) {t : SegState}
    {log : Log Bytes} (ht : R t.seg t.disk log)
    (hf : Frame { seg := s.heap c.1, disk := s.disk } t) :
    Linked R (s.put c.1 t) (cs ++ (c.1, log) :: ds) := by
  have hpath := put_path hf c.1
  have hcs : ∀ x ∈ cs, (s.heap x.1).path ≠ (s.heap c.1).path := fun x hx =>
    h.disjoint hx List.mem_cons_self
  have h' : Linked R s ([c] ++ ds) := h.right
  have hds : ∀ x ∈ ds, (s.heap x.1).path ≠ (s.heap c.1).path := fun x hx =>
    (h'.disjoint List.mem_cons_self hx).symm
  have hkeep : ∀ {es : List (Ptr × Log Bytes)},
      (∀ x ∈ es, (s.heap x.1).path ≠ (s.heap c.1).path) →
      ∀ x ∈ es, ((s.put c.1 t).heap x.1).path ≠ ((s.put c.1 t).heap c.1).path := by
    intro es hes x hx
    rw [hpath, put_heap_ne s t fun he => hes x hx (by rw [he])]
    exact hes x hx
  have hone : Linked R (s.put c.1 t) [(c.1, log)] := by
    refine ⟨?_, List.nodup_singleton _, ?_⟩
    · intro x hx
      rw [List.mem_singleton.mp hx, put_heap_self]
      exact ht
    · intro x hx
      rw [List.mem_singleton.mp hx]
      exact h'.fresh c List.mem_cons_self
  have htail : Linked R (s.put c.1 t) ([(c.1, log)] ++ ds) :=
    hone.append (h'.right.put_other hR hf hds) fun x hx d hd => by
      rw [List.mem_singleton.mp hx]
      exact (hkeep hds d hd).symm
  refine (h.left.put_other hR hf hcs).append htail ?_
  intro x hx d hd
  rcases List.mem_cons.mp hd with rfl | hd
  · exact hkeep hcs x hx
  · rw [put_heap_ne s t fun he => hcs x hx (by rw [he]),
      put_heap_ne s t fun he => hds d hd (by rw [he])]
    exact h.disjoint hx (List.mem_cons_of_mem c hd)

/-- A method of one segment leaves the other logs alone. -/
theorem Rep.update (hR : Layout R) (h : Rep R s (cs ++ c :: ds)) {t : SegState}
    {log : Log Bytes} (ht : R t.seg t.disk log)
    (hf : Frame { seg := s.heap c.1, disk := s.disk } t) :
    Rep R (s.put c.1 t) (cs ++ (c.1, log) :: ds) := by
  have hmap : (cs ++ (c.1, log) :: ds).map Prod.fst = (cs ++ c :: ds).map Prod.fst := by simp
  refine ⟨h.toLinked.update hR ht hf, ?_, ?_, ?_⟩
  · rw [hmap]; exact h.segments_eq
  · rw [hmap]; exact h.head_eq
  · rw [hmap]; exact h.tail_eq

/-- A chain that is not empty has a last segment, the tail, and its file is open. -/
theorem Rep.exists_tail (hR : Layout R) (h : Rep R s cs) (hne : cs ≠ []) :
    ∃ ds c, cs = ds ++ [c] ∧ s.q.tail = some c.1 ∧ (s.heap c.1).file ≠ none := by
  obtain ⟨ds, c, rfl⟩ := (List.eq_nil_or_concat' cs).resolve_left hne
  obtain ⟨j, hj⟩ := hR.holds (h.holds c (by simp))
  obtain ⟨off, ho⟩ := hj.handle
  refine ⟨ds, c, rfl, ?_, by rw [ho]; exact Option.some_ne_none _⟩
  rw [h.tail_eq, List.map_append]
  exact List.getLast?_concat

/-- **The content of the queue is the content of its chain.** -/
theorem Rep.content_eq (hR : Layout R) (h : Rep R s cs) :
    content s = some (Chain.content (logs cs)) := by
  have hmap : ∀ ds : List (Ptr × Log Bytes), (∀ c ∈ ds, R (s.heap c.1) s.disk c.2) →
      (ds.map Prod.fst).mapM (fun p => unread (s.heap p) s.disk)
        = some (ds.map fun c => c.2.remaining) := by
    intro ds hds
    induction ds with
    | nil => rfl
    | cons d ds ih =>
      obtain ⟨j, hj⟩ := hR.holds (hds d List.mem_cons_self)
      rw [List.map_cons, List.mapM_cons, hj.unread_eq,
        ih fun c hc => hds c (List.mem_cons_of_mem d hc)]
      rfl
  rw [content, h.segments_eq, hmap cs h.holds, Option.map_some, Chain.content, logs,
    List.flatMap_map, List.flatMap]

end Chain

/-! ## A new segment at the end -/

/-- The name `addSegment` gives to its file. -/
def nextPath (d : Disk) : FileName :=
  formatUint ((Queue.maxSegmentID 0 d.readDir + 1) % 2 ^ 64)

/-- **The next name is free**: no file has it.  It is taken only in a directory with a segment
    2^64 - 1 (`nextFree_of_lt`).  The segment that is then added opens the file of another one. -/
def NextFree (d : Disk) : Prop := d.file? (nextPath d) = none

instance (d : Disk) : Decidable (NextFree d) := inferInstanceAs (Decidable (_ = none))

/-- The queue with the segment `l` put behind the others. -/
def QState.added (s : QState) (l : Segment) (d : Disk) : QState :=
  { q := { s.q with segments := s.q.segments ++ [s.next] },
    heap := Function.update s.heap s.next l, next := s.next + 1, disk := d }

/-- No segment in the directory has a larger number. -/
theorem le_maxSegmentID (files : List (FileName × Entry)) : ∀ m, m ≤ Queue.maxSegmentID m files ∧
    ∀ e ∈ files, ∀ n, segmentID e = some n → n ≤ Queue.maxSegmentID m files := by
  induction files with
  | nil => exact fun m => ⟨Nat.le_refl m, fun e he => absurd he List.not_mem_nil⟩
  | cons e files ih =>
    intro m
    rw [Queue.maxSegmentID]
    cases hid : segmentID e with
    | none =>
      obtain ⟨hm, hfiles⟩ := ih m
      refine ⟨hm, fun e' he' n hn => ?_⟩
      rcases List.mem_cons.mp he' with rfl | he'
      · rw [hid] at hn
        cases hn
      · exact hfiles e' he' n hn
    | some k =>
      obtain ⟨hm, hfiles⟩ := ih (if k > m then k else m)
      refine ⟨Nat.le_trans (by split <;> omega) hm, fun e' he' n hn => ?_⟩
      rcases List.mem_cons.mp he' with rfl | he'
      · rw [hid] at hn
        cases hn
        exact Nat.le_trans (by split <;> omega) hm
      · exact hfiles e' he' n hn

/-- The largest identifier is that of an entry, or the one the loop began with. -/
theorem maxSegmentID_mem (files : List (FileName × Entry)) : ∀ m, Queue.maxSegmentID m files = m ∨
    ∃ e ∈ files, segmentID e = some (Queue.maxSegmentID m files) := by
  induction files with
  | nil => exact fun m => .inl rfl
  | cons e files ih =>
    intro m
    rw [Queue.maxSegmentID]
    cases hid : segmentID e with
    | none =>
      refine (ih m).imp_right ?_
      rintro ⟨e', he', hmax⟩
      exact ⟨e', List.mem_cons_of_mem e he', hmax⟩
    | some k =>
      dsimp only
      rcases ih (if k > m then k else m) with hsame | ⟨e', he', hmax⟩
      · rw [hsame]
        split
        · exact .inr ⟨e, List.mem_cons_self, hid⟩
        · exact .inl rfl
      · exact .inr ⟨e', List.mem_cons_of_mem e he', hmax⟩

/-- The next name is a number. -/
theorem numeric_nextPath (d : Disk) : parseUint (nextPath d) ≠ none := by
  rw [nextPath, parseUint_formatUint (Nat.mod_lt _ (by decide))]
  exact Option.some_ne_none _

/-- A file with the next name has a number that is not above the largest. -/
theorem mod_le_of_not_nextFree {d : Disk} (h : ¬ NextFree d) :
    (Queue.maxSegmentID 0 d.readDir + 1) % 2 ^ 64 ≤ Queue.maxSegmentID 0 d.readDir := by
  obtain ⟨f, hf⟩ := Option.ne_none_iff_exists'.mp h
  exact (le_maxSegmentID d.readDir 0).2 _ (Disk.mem_readDir.mpr (Disk.lookup_of_file? hf)) _
    (parseUint_formatUint (Nat.mod_lt _ (by decide)))

/-- The next name is free below the last identifier: its number is above all of the directory. -/
theorem nextFree_of_lt {d : Disk} (h : Queue.maxSegmentID 0 d.readDir + 1 < 2 ^ 64) :
    NextFree d := by
  by_contra hd
  have hle := mod_le_of_not_nextFree hd
  rw [Nat.mod_eq_of_lt h] at hle
  omega

/-- The next name is free where there are no segment files. -/
theorem nextFree_of_none {d : Disk} (h : ∀ name f, d.file? name = some f → parseUint name = none) :
    NextFree d := by
  by_contra hd
  obtain ⟨f, hf⟩ := Option.ne_none_iff_exists'.mp hd
  exact numeric_nextPath d (h _ f hf)

/-- **The next name is free where all segment files have one name**, whatever its number: no `uint64`
    is its own successor. -/
theorem nextFree_of_single {d : Disk} (path : FileName)
    (h : ∀ name f, d.file? name = some f → parseUint name ≠ none → name = path) : NextFree d := by
  by_contra hd
  have hle := mod_le_of_not_nextFree hd
  obtain ⟨f, hf⟩ := Option.ne_none_iff_exists'.mp hd
  have hpath := h _ f hf (numeric_nextPath d)
  have hnext : parseUint path = some ((Queue.maxSegmentID 0 d.readDir + 1) % 2 ^ 64) := by
    rw [← hpath]
    exact parseUint_formatUint (Nat.mod_lt _ (by decide))
  rcases maxSegmentID_mem d.readDir 0 with hzero | ⟨⟨name, e⟩, he, hmax⟩
  · rw [hzero] at hle
    exact absurd hle (by decide)
  · have hl := Disk.mem_readDir.mp he
    cases e with
    | dir => cases hmax
    | file g =>
      have hid : parseUint name = some (Queue.maxSegmentID 0 d.readDir) := hmax
      have hname : name = path :=
        h name g (by rw [Disk.file?, hl]) (by rw [hid]; exact Option.some_ne_none _)
      have hlt := parseUint_lt hid
      rw [hname, hnext] at hid
      have heq := Option.some.inj hid
      omega

/-- **`addSegment`** under a free name, whatever fails: an empty segment behind the others, or an
    error and at most a stub on disk. -/
theorem addSegment_cases {s : QState} (hfree : NextFree s.disk) :
    (∃ l d', Queue.addSegment s = .ok s.next (s.added l d') ∧ Clean l d' Log.empty ∧
      l.path = nextPath s.disk ∧ l.maxSize = s.q.maxSegmentSize ∧
      Elsewhere (nextPath s.disk) s.disk d' ∧ d'.script = s.disk.script.drop 2) ∨
    (∃ e d', Queue.addSegment s = .error e { s with disk := d' } ∧
      Elsewhere (nextPath s.disk) s.disk d' ∧ (s.disk.Calm 2 → d' = s.disk) ∧
      (d' = s.disk ∨ ∃ f, d'.file? (nextPath s.disk) = some f ∧ FileOK f.data)) := by
  have hid : Queue.nextSegmentID s
      = .ok ((Queue.maxSegmentID 0 s.disk.readDir + 1) % 2 ^ 64) s := rfl
  rcases Segment.newSegment_free s.q.maxSegmentSize hfree with
    ⟨l, d', he, hrest⟩ | ⟨e, d', he, hrest⟩
  · have hptr : newSegmentPtr (nextPath s.disk) s.q.maxSegmentSize s = .ok s.next
        { s with heap := Function.update s.heap s.next l, next := s.next + 1, disk := d' } := by
      rw [newSegmentPtr, he]
    refine Or.inl ⟨l, d', ?_, hrest⟩
    rw [Queue.addSegment, bind_ok hid, bind_ok (self_run s), ← nextPath, bind_ok hptr,
      bind_ok (assign_run _ _)]
    rfl
  · have hptr : newSegmentPtr (nextPath s.disk) s.q.maxSegmentSize s
        = .error e { s with disk := d' } := by
      rw [newSegmentPtr, he]
    refine Or.inr ⟨e, d', ?_, hrest⟩
    rw [Queue.addSegment, bind_ok hid, bind_ok (self_run s), ← nextPath, bind_error hptr]

section Chain

variable {R : Segment → Disk → Log Bytes → Prop} {s s' : QState}
  {cs : List (Ptr × Log Bytes)} {c : Ptr × Log Bytes}

/-- Every segment of a chain has its file. -/
theorem Linked.file_ne_none (hR : Layout R) (h : Linked R s cs) (hc : c ∈ cs) :
    s.disk.file? (s.heap c.1).path ≠ none := by
  obtain ⟨j, hj⟩ := hR.holds (h.holds c hc)
  obtain ⟨t, ht⟩ := hj.stored
  rw [ht]
  exact Option.some_ne_none _

/-- A free name is not that of a segment. -/
theorem Linked.path_ne_nextPath (hR : Layout R) (h : Linked R s cs) (hfree : NextFree s.disk)
    (hc : c ∈ cs) : (s.heap c.1).path ≠ nextPath s.disk := by
  intro he
  have hf := h.file_ne_none hR hc
  rw [he] at hf
  exact hf hfree

/-- The chain is the same when only the next name has been touched. -/
theorem Linked.elsewhere (hR : Layout R) (h : Linked R s cs) (hfree : NextFree s.disk) {d' : Disk}
    (he : Elsewhere (nextPath s.disk) s.disk d') : Linked R { s with disk := d' } cs :=
  h.of_agree hR (fun _ _ => rfl) (fun _ hc => he.others _ (h.path_ne_nextPath hR hfree hc))
    (Nat.le_refl _)

/-- A new segment at the end of the chain, under a free name. -/
theorem Linked.added (hR : Layout R) (h : Linked R s cs) (hfree : NextFree s.disk)
    {l : Segment} {d' : Disk} (hl : Clean l d' Log.empty) (hp : l.path = nextPath s.disk)
    (he : Elsewhere (nextPath s.disk) s.disk d') :
    Linked R (s.added l d') (cs ++ [(s.next, Log.empty)]) := by
  have hheap : ∀ c ∈ cs, (s.added l d').heap c.1 = s.heap c.1 := fun c hc =>
    Function.update_of_ne (Nat.ne_of_lt (h.fresh c hc)) ..
  have hnew : (s.added l d').heap s.next = l := Function.update_self ..
  refine (h.of_agree hR hheap (fun c hc => he.others _ (h.path_ne_nextPath hR hfree hc))
    (Nat.le_succ _)).append ?_ ?_
  · refine ⟨?_, List.nodup_singleton _, ?_⟩
    · intro x hx
      rw [List.mem_singleton.mp hx, hnew]
      exact hR.ofClean hl
    · intro x hx
      rw [List.mem_singleton.mp hx]
      exact Nat.lt_succ_self _
  · intro x hx y hy
    rw [List.mem_singleton.mp hy, hnew, hheap x hx, hp]
    exact h.path_ne_nextPath hR hfree hx

/-- The queue with the segment `l` put behind the others as the new tail. -/
def QState.rolled (s : QState) (l : Segment) (d : Disk) : QState :=
  { s.added l d with q := { (s.added l d).q with tail := some s.next } }

/-- **Rolling over**: a new segment, which becomes the tail, is an empty log behind the chain. -/
theorem Rep.rolled (hR : Layout R) (h : Rep R s cs) (hne : cs ≠ []) (hfree : NextFree s.disk)
    {l : Segment} {d' : Disk} (hl : Clean l d' Log.empty) (hp : l.path = nextPath s.disk)
    (he : Elsewhere (nextPath s.disk) s.disk d') :
    Rep R (s.rolled l d') (cs ++ [(s.next, Log.empty)]) := by
  have hlink := h.toLinked.added hR hfree hl hp he
  refine ⟨⟨hlink.holds, hlink.paths, hlink.fresh⟩, ?_, ?_, ?_⟩
  · show s.q.segments ++ [s.next] = _
    rw [h.segments_eq, List.map_append]
    rfl
  · show s.q.head = _
    rw [h.head_eq, List.map_append, List.head?_append_of_ne_nil]
    exact fun hm => hne (List.map_eq_nil_iff.mp hm)
  · show some s.next = _
    rw [List.map_append]
    exact (List.getLast?_concat).symm

/-! ## The head dropped -/

/-- The queue after `trimHead` has dropped the segment at `p`. -/
def QState.trimmed (s : QState) (p : Ptr) : QState :=
  { q := { s.q with segments := s.q.segments.tail, head := s.q.segments.tail.head? },
    heap := Function.update s.heap p { s.heap p with file := none }, next := s.next,
    disk := s.disk.remove (s.heap p).path }

theorem lookup_remove_ne (d : Disk) {name other : FileName} (h : other ≠ name) :
    (d.remove name).entries.lookup other = d.entries.lookup other := AList.lookup_erase_ne h

/-- `trimHead`, executed on a queue of at least two segments whose head is the first. -/
theorem trimHead_eq {p : Ptr} {hd : Handle} {f : File} (hlen : s.q.segments.length > 1)
    (hhead : s.q.head = some p) (hopen : (s.heap p).file = some hd)
    (hfile : s.disk.file? (s.heap p).path = some f) :
    Queue.trimHead s = .ok () (s.trimmed p) := by
  have hlook : s.disk.entries.lookup (s.heap p).path ≠ none := by
    intro hn
    rw [Disk.file?, hn] at hfile
    cases hfile
  obtain ⟨x, hx⟩ := Option.ne_none_iff_exists'.mp hlook
  set s1 : QState := { s with q := { s.q with segments := s.q.segments.tail } } with hs1
  have hclose : Segment.close { seg := s1.heap p, disk := s1.disk }
      = .ok () { seg := { s.heap p with file := none }, disk := s.disk } := by
    rw [Segment.close, bind_ok (Segment.self_eq _), if_neg (by rw [hs1, hopen]; simp)]
    rfl
  have hderef : deref s.q.head s1 = .ok p s1 := by
    rw [hhead]; rfl
  rw [Queue.trimHead, bind_ok (self_run s), if_pos hlen, bind_ok (assign_run _ _),
    bind_ok hderef, bind_ok (call_ok hclose)]
  set s2 : QState := s1.put p { seg := { s.heap p with file := none }, disk := s.disk } with hs2
  have hpath : call p (Segment.path <$> Segment.self) s2
      = .ok (s.heap p).path (s2.put p { seg := s2.heap p, disk := s2.disk }) := by
    refine call_ok ?_
    rw [hs2, put_heap_self]
    rfl
  have hput : s2.put p { seg := s2.heap p, disk := s2.disk } = s2 := by
    rw [QState.put, Function.update_eq_self]
  have hrm : removeFile (s.heap p).path s2
      = .ok () { s2 with disk := s.disk.remove (s.heap p).path } := by
    rw [removeFile, hs2, put_disk, hx]
  rw [bind_ok hpath, hput, bind_ok hrm, assign_run]
  rfl

/-- With a single segment there is nothing to trim. -/
theorem trimHead_single (hlen : s.q.segments.length ≤ 1) : Queue.trimHead s = .ok () s := by
  rw [Queue.trimHead, bind_ok (self_run s), if_neg (by omega)]
  rfl

/-- **`trimHead` drops the first segment** and its file. -/
theorem trimHead_rep (hR : Layout R) {c' : Ptr × Log Bytes} (h : Rep R s (c :: c' :: cs)) :
    Queue.trimHead s = .ok () (s.trimmed c.1) ∧ Rep R (s.trimmed c.1) (c' :: cs) := by
  obtain ⟨j, hj⟩ := hR.holds (h.holds c List.mem_cons_self)
  obtain ⟨off, ho⟩ := hj.handle
  obtain ⟨t, ht⟩ := hj.stored
  have hrest : Linked R s ([c] ++ c' :: cs) := h.toLinked
  have hne : ∀ x ∈ c' :: cs, (s.heap x.1).path ≠ (s.heap c.1).path := fun x hx =>
    (hrest.disjoint List.mem_cons_self hx).symm
  refine ⟨trimHead_eq ?_ ?_ ho ht, ?_, ?_, ?_, ?_⟩
  · rw [h.segments_eq]
    simp
  · rw [h.head_eq]
    rfl
  · refine hrest.right.of_agree hR ?_ ?_ (Nat.le_refl _)
    · intro x hx
      exact Function.update_of_ne (fun he => hne x hx (by rw [he])) ..
    · intro x hx
      exact lookup_remove_ne _ (hne x hx)
  · show s.q.segments.tail = _
    rw [h.segments_eq]
    rfl
  · show s.q.segments.tail.head? = _
    rw [h.segments_eq]
    rfl
  · show s.q.tail = _
    rw [h.tail_eq, List.map_cons, List.map_cons, List.getLast?_cons_cons]

end Chain

/-! ## `Append`, case by case -/

/-- The total size on disk used by the queue. -/
def QState.usage (s : QState) : Int := (s.q.segments.map fun p => (s.heap p).diskUsage).sum

section Append

variable {s : QState} {b : Bytes} {p : Ptr} {t : SegState}

/-- Without a tail the queue is not open. -/
theorem append_notOpen (ht : s.q.tail = none) : Queue.append b s = .error .notOpen s := by
  rw [Queue.append, bind_ok (self_run s), ht]
  rfl

/-- A queue that is full refuses, and writes nothing. -/
theorem append_queueFull (ht : s.q.tail = some p) (hq : s.q.maxSize < s.usage + b.length) :
    Queue.append b s = .error .queueFull s := by
  rw [Queue.append, bind_ok (self_run s), ht]
  dsimp only
  rw [bind_ok (show Queue.diskUsage s = .ok s.usage s from rfl), if_pos hq]
  rfl

/-- The tail takes the slice. -/
theorem append_stored (ht : s.q.tail = some p) (hq : s.usage + b.length ≤ s.q.maxSize)
    (hx : Segment.append b { seg := s.heap p, disk := s.disk } = .ok () t) :
    Queue.append b s = .ok () (s.put p t) := by
  rw [Queue.append, bind_ok (self_run s), ht]
  dsimp only
  rw [bind_ok (show Queue.diskUsage s = .ok s.usage s from rfl), if_neg (by omega),
    bind_ok (attempt_ok (call_ok hx))]
  rfl

/-- The tail is full: a new segment is made, and takes the slice or not. -/
theorem append_full (ht : s.q.tail = some p) (hq : s.usage + b.length ≤ s.q.maxSize)
    (hopen : (s.heap p).file ≠ none) (hfull : (s.heap p).maxSize < (s.heap p).size + b.length) :
    Queue.append b s = (Queue.addSegment >>= fun segment =>
      assign (fun l => { l with tail := some segment }) >>= fun _ =>
      call segment (Segment.append b)) s := by
  have hx := Segment.append_full (s := { seg := s.heap p, disk := s.disk }) hopen hfull
  have hput : s.put p { seg := s.heap p, disk := s.disk } = s := by
    rw [QState.put, Function.update_eq_self]
  rw [Queue.append, bind_ok (self_run s), ht]
  dsimp only
  rw [bind_ok (show Queue.diskUsage s = .ok s.usage s from rfl), if_neg (by omega),
    bind_ok (attempt_error (call_error hx)), hput]

/-- The rest of `Append` once the new segment has been made. -/
theorem append_rolled {l : Segment} {d' : Disk}
    (ha : Queue.addSegment s = .ok s.next (s.added l d')) :
    (Queue.addSegment >>= fun segment =>
      assign (fun l => { l with tail := some segment }) >>= fun _ =>
      call segment (Segment.append b)) s = call s.next (Segment.append b) (s.rolled l d') := by
  rw [bind_ok ha, bind_ok (assign_run _ _)]
  rfl

end Append

/-- `Current` is `current` of the head. -/
theorem current_eq_call {s : QState} {p : Ptr} (hhead : s.q.head = some p) :
    Queue.current s = call p Segment.current s := by
  rw [Queue.current, bind_ok (self_run s), hhead]

/-! ## `SetMaxSegmentSize` -/

/-- The state after the limit of the segments at `ps` has been set. -/
def QState.limited (s : QState) (size : Int) (ps : List Ptr) : QState :=
  { s with heap := fun p => if p ∈ ps then (s.heap p).setMaxSegmentSize size else s.heap p }

/-- The loop that gives the segments their new limit. -/
theorem setSegmentsMaxSize_eq (size : Int) (ps : List Ptr) : ∀ s : QState,
    Queue.setSegmentsMaxSize size ps s = .ok () (s.limited size ps) := by
  induction ps with
  | nil => exact fun s => by simp [Queue.setSegmentsMaxSize, QState.limited]; rfl
  | cons p ps ih =>
    intro s
    rw [Queue.setSegmentsMaxSize, bind_ok (call_ok (Segment.assign_eq _ _)), ih]
    refine congrArg (EStateM.Result.ok ()) ?_
    simp only [QState.limited, QState.put, QState.mk.injEq, true_and, and_true]
    funext q
    by_cases hq : q = p
    · subst hq
      by_cases hm : q ∈ ps <;> simp [hm, Segment.setMaxSegmentSize]
    · simp [hq]

/-- The limit changes no path. -/
theorem limited_path (s : QState) (size : Int) (ps : List Ptr) (p : Ptr) :
    ((s.limited size ps).heap p).path = (s.heap p).path := by
  simp only [QState.limited]
  split <;> rfl

/-- And no size. -/
theorem limited_size (s : QState) (size : Int) (ps : List Ptr) (p : Ptr) :
    ((s.limited size ps).heap p).size = (s.heap p).size := by
  simp only [QState.limited]
  split <;> rfl

/-- The limits of the segments do not matter to the chain. -/
theorem Rep.limited {R : Segment → Disk → Log Bytes → Prop} {s : QState}
    {chain : List (Ptr × Log Bytes)} (hR : Layout R) (h : Rep R s chain) (size : Int)
    (ps : List Ptr) (m : Int) :
    Rep R { s.limited size ps with q := { s.q with maxSegmentSize := m } } chain := by
  refine ⟨⟨?_, ?_, h.fresh⟩, h.segments_eq, h.head_eq, h.tail_eq⟩
  · intro c hc
    show R ((s.limited size ps).heap c.1) s.disk c.2
    simp only [QState.limited]
    split
    · exact hR.limit size (h.holds c hc)
    · exact h.holds c hc
  · have hp := h.paths
    simp only [limited_path]
    exact hp

/-- `SetMaxSegmentSize`, executed up to its last step: the limits are set, and a tail beyond the new
    limit is followed by a new segment. -/
theorem setMaxSegmentSize_run {s : QState} {p : Ptr} {size : Int} (htail : s.q.tail = some p) :
    Queue.setMaxSegmentSize size s
      = (if ((s.limited size s.q.segments).heap p).size ≥ size then
          Queue.addSegment >>= fun segment => assign (fun l => { l with tail := some segment })
        else pure ())
        { s.limited size s.q.segments with q := { s.q with maxSegmentSize := size } } := by
  set s1 : QState := { s with q := { s.q with maxSegmentSize := size } } with hs1
  set s2 : QState := s1.limited size s.q.segments with hs2
  have hderef : deref s.q.tail s2 = .ok p s2 := by
    rw [htail]; rfl
  have husage : call p (Segment.diskUsage <$> Segment.self) s2 = .ok (s2.heap p).size s2 := by
    have hx := call_ok (p := p) (s := s2) (x := Segment.diskUsage <$> Segment.self)
      (a := (s2.heap p).size) (t := { seg := s2.heap p, disk := s2.disk }) rfl
    rw [hx, QState.put, Function.update_eq_self]
  rw [Queue.setMaxSegmentSize, bind_ok (assign_run _ _), bind_ok (self_run _),
    bind_ok (setSegmentsMaxSize_eq size s.q.segments s1), bind_ok hderef, bind_ok husage]
  rfl

/-- On a queue that is not open the limits are set, and the nil tail panics. -/
theorem setMaxSegmentSize_notOpen {s : QState} {size : Int} (htail : s.q.tail = none) :
    Queue.setMaxSegmentSize size s = .error .panicked
      { s.limited size s.q.segments with q := { s.q with maxSegmentSize := size } } := by
  set s1 : QState := { s with q := { s.q with maxSegmentSize := size } } with hs1
  have hderef : deref s.q.tail (s1.limited size s.q.segments)
      = .error .panicked (s1.limited size s.q.segments) := by
    rw [htail]; rfl
  rw [Queue.setMaxSegmentSize, bind_ok (assign_run _ _), bind_ok (self_run _),
    bind_ok (setSegmentsMaxSize_eq size s.q.segments s1), bind_error hderef]
  rfl

end InfluxCluster.HH
