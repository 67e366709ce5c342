/-
  The directories of the nodes.

  Every processor of a node lives in the same directory, `dir/<nodeID>`.  In the model each has its
  own copy of it, so which copy is THE directory has to be said: it is that of the processor that was
  made last (`Service.directory`).  The others have been closed and write nothing.

  A processor leaves the map only after `Purge` has removed its directory, so a node without a
  processor has an empty one (`Swept`).  Hence a processor that `WriteShard` makes, if it opens the
  directory that is there (`ServiceOp.Finds`), starts with no hints (`Finds.inNewDirectory`).
-/
import InfluxCluster.HH.ServiceOwners

namespace InfluxCluster.HH

open InfluxCluster.Lib

section Directories

variable {Point : Type} {c : PointCodec Point} {maxAge : Nat} {s s' : Service Point}
  {op : ServiceOp Point} {k k' : UInt64} {p q : NodePtr}

open Service

/-! ## Other contents of one processor -/

section Put

variable {n : Processor}

theorem Service.put_self : (s.put p n).heap p = { s.heap p with proc := n } :=
  Function.update_self _ _ _

theorem Service.put_ne (hq : q ≠ p) : (s.put p n).heap q = s.heap q := Function.update_of_ne hq _ _

/-- A method that changes nothing. -/
theorem Service.put_same (hn : (s.heap p).proc = n) : (s.put p n).heap q = s.heap q := by
  subst hn
  by_cases hq : q = p
  · subst hq
    rw [put_self]
  · exact put_ne hq

/-- A method that ends the goroutine. -/
theorem Service.put_ended (hn : ¬ (s.put p n).Running p) (hq : (s.put p n).Running q) :
    (s.put p n).heap q = s.heap q := by
  refine put_ne ?_
  rintro rfl
  exact hn hq

end Put

/-! ## The directory of a node -/

/-- The processor of the node `k` that was made last. -/
def Service.last (s : Service Point) (k : UInt64) : Option NodePtr :=
  ((List.range s.next).filter fun p => (s.heap p).nodeID = k).getLast?

/-- **What is in the directory of the node `k`.**  A queue that is there has the directory, also if
    it has been closed. -/
def Service.directory (s : Service Point) (k : UInt64) : AList fun _ : FileName => Entry :=
  match (s.last k).bind fun p => (s.heap p).proc.queue with
  | some q => q.disk.entries
  | none => ∅

theorem Service.nodeID_of_last (h : s.last k = some p) : (s.heap p).nodeID = k := by
  have hmem := List.mem_of_getLast? h
  exact of_decide_eq_true (List.mem_filter.mp hmem).2

/-- The order in which processors are made does not see what they hold. -/
theorem Service.Frame.last (hf : s.Frame s') (k : UInt64) : s'.last k = s.last k := by
  rw [Service.last, Service.last, hf.next]
  simp only [hf.nodeID]

theorem Service.last_spawned_self {q : QState} : (s.spawned k q).last k = some s.next := by
  show (List.filter _ (List.range (s.next + 1))).getLast? = _
  rw [List.range_succ, List.filter_append, List.filter_cons_of_pos, List.filter_nil,
    List.getLast?_concat]
  rw [spawned_new]
  exact decide_eq_true rfl

theorem Service.last_spawned_ne {q : QState} (hk : k' ≠ k) :
    (s.spawned k q).last k' = s.last k' := by
  show (List.filter _ (List.range (s.next + 1))).getLast? = _
  rw [List.range_succ, List.filter_append, List.filter_cons_of_neg, List.filter_nil,
    List.append_nil, Service.last]
  · congr 1
    refine List.filter_congr fun p hp => ?_
    rw [spawned_old (Nat.ne_of_lt (List.mem_range.mp hp))]
  · rw [spawned_new]
    exact fun he => hk (of_decide_eq_true he).symm

/-- The directory of a node is where its last processor has it. -/
theorem Service.directory_congr (hlast : s'.last k = s.last k)
    (hqueue : ∀ p, s.last k = some p → (s'.heap p).proc.queue = (s.heap p).proc.queue) :
    s'.directory k = s.directory k := by
  rw [directory, directory, hlast]
  cases hp : s.last k with
  | none => rfl
  | some p =>
    rw [Option.bind_some, Option.bind_some, hqueue p hp]

/-! ## Nodes without a processor have no directory -/

/-- **The map has the last processor of a node, and a node that is not in it has no hints on disk.** -/
structure Service.Swept (s : Service Point) : Prop where
  latest : ∀ k p, s.processors.lookup k = some p → s.last k = some p
  empty : ∀ k, s.processors.lookup k = none → s.directory k = ∅

/-- At the beginning there is no directory. -/
theorem Service.swept_new : (new : Service Point).Swept :=
  ⟨fun _ _ h => (by cases h), fun _ _ => rfl⟩

/-- What a processor holds may change if it is in the map. -/
theorem Service.Swept.frame (h : s.Swept) (hf : s.Frame s')
    (hqueue : ∀ p, s.processors.lookup (s.heap p).nodeID = none →
      (s'.heap p).proc.queue = (s.heap p).proc.queue) : s'.Swept := by
  refine ⟨fun k p hp => ?_, fun k hk => ?_⟩
  · rw [hf.processors] at hp
    rw [hf.last]
    exact h.latest k p hp
  · rw [hf.processors] at hk
    rw [directory_congr (hf.last k) fun p hp => hqueue p (by rw [nodeID_of_last hp]; exact hk)]
    exact h.empty k hk

/-- A processor of the map may do anything to its directory. -/
theorem Service.Swept.put (h : s.Swept) {n : Processor} (hf : s.Frame (s.put p n))
    (hqueue : s.processors.lookup (s.heap p).nodeID = none → n.queue = (s.heap p).proc.queue) :
    (s.put p n).Swept := by
  refine h.frame hf fun q hq => ?_
  by_cases hqp : q = p
  · subst hqp
    rw [put_self]
    exact hqueue hq
  · rw [put_ne hqp]

/-- The same for one that is known to be in the map. -/
theorem Service.Swept.put_mapped (h : s.Swept) (hw : s.Wired) {n : Processor}
    (hf : s.Frame (s.put p n)) (hthere : s.processors.lookup k = some p) : (s.put p n).Swept := by
  refine h.put hf fun hnone => ?_
  rw [(hw.keys k p hthere).2, hthere] at hnone
  cases hnone

/-- Neither the calls nor the lock have a directory. -/
theorem Service.Swept.congr (h : s.Swept) (hprocessors : s'.processors = s.processors)
    (hheap : s'.heap = s.heap) (hnext : s'.next = s.next) : s'.Swept := by
  have hlast : ∀ k, s'.last k = s.last k := by
    intro k
    rw [Service.last, Service.last, hheap, hnext]
  refine ⟨fun k p hp => ?_, fun k hk => ?_⟩
  · rw [hprocessors] at hp
    rw [hlast]
    exact h.latest k p hp
  · rw [hprocessors] at hk
    rw [directory_congr (hlast k) fun p _ => by rw [hheap]]
    exact h.empty k hk

theorem Service.Swept.spawned (h : s.Swept) (k : UInt64) (q : QState) :
    (s.spawned k q).Swept := by
  refine ⟨fun k' p hp => ?_, fun k' hk' => ?_⟩
  · by_cases hk : k' = k
    · subst hk
      rw [spawned_lookup_self] at hp
      rw [last_spawned_self]
      exact hp
    · rw [spawned_lookup_ne hk] at hp
      rw [last_spawned_ne hk]
      exact h.latest k' p hp
  · have hk : k' ≠ k := by
      rintro rfl
      rw [spawned_lookup_self] at hk'
      cases hk'
    rw [spawned_lookup_ne hk] at hk'
    rw [directory_congr (last_spawned_ne hk), h.empty k' hk']
    intro p hp
    have hlt : p < s.next :=
      List.mem_range.mp (List.mem_filter.mp (List.mem_of_getLast? hp)).1
    rw [spawned_old (Nat.ne_of_lt hlt)]

/-- A processor that has been closed refuses a block and stays as it is. -/
theorem Processor.Inv.writeShard_closed {n : Processor} (h : n.Inv) (hrun : n.running ≠ true)
    (shardID : UInt64) (points : List Point) :
    final (Processor.writeShard c shardID points n) = n := by
  have hd : n.done = false :=
    Bool.eq_false_of_not_eq_true fun hd => hrun (h.consistent.mp hd).2
  rw [Processor.writeShard, bind_ok (Processor.self_run n), if_pos hd]
  rfl

/-- A method of a processor that runs, or that changes nothing if it does not. -/
theorem Service.Swept.put_running (h : s.Swept) (ho : s.Owned) {n : Processor}
    (hf : s.Frame (s.put p n)) (hn : ¬ s.Running p → n = (s.heap p).proc) : (s.put p n).Swept := by
  refine h.put hf fun hnone => ?_
  rw [hn fun hrun => ?_]
  rw [ho p hrun] at hnone
  cases hnone

/-- **`Purge` empties the directory of the node that leaves the map.** -/
theorem Service.Swept.removed (h : s.Swept) (hw : s.Wired) {r : Option OSErr} {n : Processor}
    {holder : Holder} (hthere : s.processors.lookup k = some p)
    (hpurge : Processor.purge r (s.heap p).proc = .ok () n) :
    Swept { (s.put p n).hold holder with processors := s.processors.erase k } := by
  have hf : s.Frame (s.put p n) := hw.frame_purge (congrArg final hpurge)
  have hput := h.put_mapped hw hf hthere
  refine ⟨fun k' q hq => ?_, fun k' hk' => ?_⟩
  · have hq : (s.processors.erase k).lookup k' = some q := hq
    have hne : k' ≠ k := by
      rintro rfl
      rw [AList.lookup_erase] at hq
      cases hq
    rw [AList.lookup_erase_ne hne] at hq
    exact hput.latest k' q hq
  · have hk' : (s.processors.erase k).lookup k' = none := hk'
    show (s.put p n).directory k' = ∅
    by_cases hne : k' = k
    · subst hne
      rw [directory, hput.latest k' p hthere, Option.bind_some, put_self]
      obtain ⟨-, hdone⟩ | ⟨e, herror⟩ := Processor.purge_cases r (s.heap p).proc
      · rw [hdone] at hpurge
        cases hpurge
        dsimp only
        cases (s.heap p).proc.queue with
        | none => rfl
        | some q => rfl
      · rw [herror] at hpurge
        cases hpurge
    · rw [AList.lookup_erase_ne hne] at hk'
      exact hput.empty k' hk'

/-- **Every step keeps the directories swept.** -/
theorem ServiceOp.Does.swept (hd : ServiceOp.Does c maxAge s op s') (hw : s.Wired) (ho : s.Owned)
    (h : s.Swept) : s'.Swept := by
  have hrelies := hw.relies
  cases hd with
  | opens hfree => exact openEntries_inv (fun t k q ht => ht.spawned k q.1) h _
  | created hfree hcall hnone hspawn =>
    obtain ⟨q, -, rfl⟩ := spawn_ok hspawn
    exact (h.spawned _ q.1).congr rfl rfl rfl
  | accepted hcall hwrite =>
    have hf := hw.frame_writeShard (congrArg final hwrite)
    refine (h.put_running ho hf fun hrun => ?_).congr rfl rfl rfl
    exact (congrArg final hwrite).symm.trans ((hw.procs _).writeShard_closed hrun _ _)
  | refused hcall hwrite =>
    have hf := hw.frame_writeShard (congrArg final hwrite)
    refine (h.put_running ho hf fun hrun => ?_).congr rfl rfl rfl
    exact (congrArg final hwrite).symm.trans ((hw.procs _).writeShard_closed hrun _ _)
  | move hrun =>
    rename_i p m
    have hf := hw.update_frame (Node.next_same (c := c) (s.heap p) m).1 (fun _ => hrun)
      (Node.next_inv (c := c) (hw.procs p) m)
    refine (h.frame hf fun q hq => ?_).congr rfl rfl rfl
    have hne : q ≠ p := by
      rintro rfl
      rw [ho q hrun] at hq
      cases hq
    exact congrArg (fun n : Node => n.proc.queue) (Function.update_of_ne hne _ _)
  | looked hpass hthere hread | unread hpass hthere hread =>
    have hf := hw.frame_call keeps_lastModified (congrArg final hread)
    exact (h.put_mapped hw hf hthere).congr rfl rfl rfl
  | closed hpass hidle hclose | unclosed hpass hidle hclose =>
    rw [hpass] at hrelies
    have hf := (hw.frame_close (congrArg final hclose)).1
    exact (h.put_mapped hw hf hrelies).congr rfl rfl rfl
  | removed hpass hpurge =>
    rw [hpass] at hrelies
    exact h.removed hw hrelies.1 hpurge
  | unremoved hpass hpurge =>
    rw [hpass] at hrelies
    have hf := hw.frame_purge (congrArg final hpurge)
    exact (h.put_mapped hw hf hrelies.1).congr rfl rfl rfl
  | closedNode hclosing hthere hidle hclose | unclosedNode hclosing hthere hidle hclose =>
    have hf := (hw.frame_close (congrArg final hclose)).1
    exact (h.put_mapped hw hf hthere).congr rfl rfl rfl
  | lookup _ _ | again _ _ _ | uncreated _ | passBegin _ | inactive _ _ | active _ | old _ _
  | young _ | passEnd _ | closeBegin _ | closeEnd _ => exact h.congr rfl rfl rfl

/-! ## A new processor -/

/-- **A processor that is made opens the directory that is there**, at any time, and no call on the
    disk fails meanwhile. -/
def ServiceOp.Finds (maxSize : Int) (s : Service Point) : ServiceOp Point → Prop
  | .create i a => ∀ w ∈ s.calls i, s.processors.lookup w.ownerID = none →
      ∃ now, a = .ofQueue maxSize { entries := s.directory w.ownerID, now := now, script := [] }
  | _ => True

/-- A processor that is made starts on a good queue without hints. -/
def ServiceOp.InNewDirectory (s : Service Point) : ServiceOp Point → Prop
  | .create i (.opened q) => ∀ w ∈ s.calls i, s.processors.lookup w.ownerID = none →
      ∃ chain, Good q.1 chain ∧ Chain.content (logs chain) = []
  | _ => True

/-- A queue opened over an empty directory. -/
theorem Attempt.ofQueue_empty {maxSize : Int} {now : Time} {q : OpenQueue}
    (h : Attempt.opened q = .ofQueue maxSize { entries := ∅, now := now, script := [] }) :
    ∃ chain, Good q.1 chain ∧ Chain.content (logs chain) = [] := by
  set s : QState := newQueue maxSize { entries := ∅, now := now, script := [] } with hs
  have hopen : Queue.openQueue s = .ok () q.1 := by
    unfold Attempt.ofQueue at h
    split at h
    · next hok =>
      cases h
      exact hok
    · cases h
  obtain ⟨s', chain, hok, hgood, hlogs⟩ | ⟨e, s', herror⟩ := open_empty (s := s) rfl rfl
  · rw [hopen] at hok
    cases hok
    exact ⟨chain, hgood, by rw [hlogs]; rfl⟩
  · rw [hopen] at herror
    cases herror

/-- A node without a processor has no hints on disk. -/
theorem ServiceOp.Finds.inNewDirectory {maxSize : Int} (hf : op.Finds maxSize s) (h : s.Swept) :
    op.InNewDirectory s := by
  cases op with
  | create i a =>
    cases a with
    | mkdirAll e => trivial
    | queue e => trivial
    | opened q =>
      intro w hw hnone
      obtain ⟨now, ha⟩ := hf w hw hnone
      rw [h.empty _ hnone] at ha
      exact Attempt.ofQueue_empty ha
  | _ => trivial

/-- A processor that is made opens an empty directory. -/
def ServiceOp.MakesEmpty (maxSize : Int) (op : ServiceOp Point) : Prop :=
  ∀ i a, op = .create i a → a = .ofQueue maxSize Disk.empty

/-- Where directories are swept, an empty one is there. -/
theorem Service.Swept.finds {maxSize : Int} (h : s.Swept) (hop : op.MakesEmpty maxSize) :
    op.Finds maxSize s := by
  cases op with
  | create i a =>
    intro w _ hnone
    refine ⟨0, ?_⟩
    rw [h.empty _ hnone]
    exact hop i a rfl
  | _ => trivial

end Directories

end InfluxCluster.HH
