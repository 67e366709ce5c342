/-
  One processor for a directory: which processors of the hinted-handoff service run.

  Two processors that run over one directory would write each other's segment files.  `Owned` says
  that a processor that runs is the one in the map: then there is at most one of a node, and `Close`
  finds it.  Look-ups, passes and `Close` keep it in every order and with every outcome of their
  file operations: the second look-up under the write lock is what makes a new processor safe, and a
  pass takes out of the map only what it has closed.

  `Open` alone can break it.  It makes a processor for every NUMBER among the names of the root
  directory, without a look at the map.  So the ownership is there all along EXACTLY IF each `Open`
  finds distinct numbers ("7" and "007" are one node) and no processor of them that still runs
  (`service_owned_iff`).

  The proofs go by the WIRING (`Wired`): the map and the calls point at processors of the right
  nodes, addresses not handed out have no goroutine, and what a pass has closed stays closed.  Most
  steps change only what a processor holds, who has the lock, or a call: a `Frame`.
-/
import InfluxCluster.HH.Service

namespace InfluxCluster.HH

open InfluxCluster.Lib

/-! ## Processors and what is done to them -/

section Processors

variable {Point : Type} {c : PointCodec Point} {n n' : Processor}

namespace Processor

/-- A method of the queue leaves the mark and the goroutine alone. -/
theorem final_call {α : Type} (x : QM α) (n : Processor) :
    (final (call x n)).done = n.done ∧ (final (call x n)).running = n.running := by
  rw [call]
  cases n.queue with
  | none => exact ⟨rfl, rfl⟩
  | some q =>
    dsimp only
    cases x q with
    | ok a q' => exact ⟨rfl, rfl⟩
    | error e q' => exact ⟨rfl, rfl⟩

/-- A method of the queue that keeps it open, on a processor that may be closed. -/
theorem Inv.final_call (h : n.Inv) {α : Type} {x : QM α}
    (hx : Keeps (OnQueue Queue.IsOpen) x) : (final (Processor.call x n)).Inv := by
  obtain ⟨hdone, hrunning⟩ := Processor.final_call x n
  cases hd : n.done with
  | false => exact inv_closed (hdone.trans hd) (hrunning.trans (h.not_running hd))
  | true =>
    obtain ⟨⟨q, hq, ho⟩, hr⟩ := h.consistent.mp hd
    have hkeeps := keeps_iff.mp hx q ho
    rw [Processor.call, show n.queue = some q from hq]
    dsimp only
    cases hrun : x q with
    | ok a q' =>
      rw [hrun] at hkeeps
      exact inv_serving hd rfl hkeeps hr
    | error e q' =>
      rw [hrun] at hkeeps
      exact inv_serving hd rfl hkeeps hr

/-- `WriteShard` starts and stops no goroutine. -/
theorem final_writeShard (shardID : UInt64) (points : List Point) (n : Processor) :
    (final (writeShard c shardID points n)).running = n.running := by
  rw [writeShard, bind_ok (self_run n)]
  by_cases hd : n.done = false
  · rw [if_pos hd]
    rfl
  · rw [if_neg hd]
    exact (final_call _ n).2

/-- **What `Purge` does**: only one that returns nil changes anything, and it has removed what was in
    the directory of a processor that is closed. -/
theorem purge_cases (removed : Option OSErr) (n : Processor) :
    (n.done = false ∧ purge removed n = .ok ()
        { n with queue := n.queue.map fun q => { q with disk := q.disk.removeAll } }) ∨
      ∃ e, purge removed n = .error e n := by
  unfold purge
  rw [bind_ok (self_run n)]
  dsimp only
  by_cases hd : n.done = true
  · rw [if_pos hd]
    exact .inr ⟨_, rfl⟩
  · rw [if_neg hd]
    cases removed with
    | none => exact .inl ⟨Bool.eq_false_of_not_eq_true hd, rfl⟩
    | some e => exact .inr ⟨_, rfl⟩

/-- `Purge` neither: it wants a closed processor. -/
theorem final_purge (removed : Option OSErr) (n : Processor) :
    (final (purge removed n)).running = n.running := by
  obtain ⟨-, h⟩ | ⟨e, h⟩ := purge_cases removed n
  · rw [h]
    rfl
  · rw [h]
    rfl

/-- After `Close` there is no goroutine, whether closing the queue failed or not. -/
theorem Inv.final_close (h : n.Inv) : (final (Processor.close n)).running = false := by
  rw [Processor.close, bind_ok (self_run n)]
  cases hd : n.done with
  | false => exact h.not_running hd
  | true =>
    rw [if_neg Bool.noConfusion, bind_ok (assign_run _ n)]
    exact (Processor.final_call _ _).2

/-- `Open` of a new processor. -/
theorem open_new (a : Attempt) : openProcessor a .new =
    match a with
    | .mkdirAll e => .error (.mkdirAll e) { Processor.new with done := true }
    | .queue e => .error (.queue e) { Processor.new with done := true }
    | .opened q => .ok () { done := true, queue := some q.1, running := true } :=
  opens_eq (c := mutePoints) rfl a

end Processor

theorem keeps_lastModified : Keeps (OnQueue Queue.IsOpen) Queue.lastModified := by
  refine Triple.bind Queue.keeps_self fun l => ?_
  cases l.tail with
  | none => exact keeps_pure 0
  | some tail => exact Queue.keeps_call _ _

theorem keeps_tickQueue (t : Time) : Keeps (OnQueue Queue.IsOpen) (tickQueue t) := fun _ hs => hs

namespace Node

variable {n : Node}

/-- A move of the goroutine leaves the node and the goroutine. -/
theorem next_same (n : Node) (m : NodeMove Point) :
    (n.next c m).nodeID = n.nodeID ∧ (n.next c m).proc.running = n.proc.running := by
  cases m with
  | begin env =>
    rw [next]
    split
    · exact ⟨rfl, rfl⟩
    · exact ⟨rfl, rfl⟩
  | fetch =>
    rw [next]
    split
    · have hcall := (Processor.final_call Queue.current n.proc).2
      split
      · next heq =>
        rw [heq] at hcall
        exact ⟨rfl, hcall⟩
      · next heq =>
        rw [heq] at hcall
        exact ⟨rfl, hcall⟩
    · exact ⟨rfl, rfl⟩
  | deliver env =>
    rw [next]
    split
    · exact ⟨rfl, rfl⟩
    · exact ⟨rfl, rfl⟩
  | advance =>
    rw [next]
    split
    · exact ⟨rfl, (Processor.final_call Queue.advance n.proc).2⟩
    · exact ⟨rfl, rfl⟩
  | age fuel when_ =>
    rw [next]
    split
    · exact ⟨rfl, (Processor.final_call _ n.proc).2⟩
    · exact ⟨rfl, rfl⟩
  | tick t => exact ⟨rfl, (Processor.final_call _ n.proc).2⟩

/-- A move of a processor leaves it consistent. -/
theorem next_inv (h : n.proc.Inv) (m : NodeMove Point) : (n.next c m).proc.Inv := by
  cases m with
  | begin env =>
    rw [next]
    split
    · exact h
    · exact h
  | fetch =>
    rw [next]
    split
    · have hcall := h.final_call Queue.keeps_current
      split
      · next heq =>
        rw [heq] at hcall
        exact hcall
      · next heq =>
        rw [heq] at hcall
        exact hcall
    · exact h
  | deliver env =>
    rw [next]
    split
    · exact h
    · exact h
  | advance =>
    rw [next]
    split
    · exact h.final_call Queue.keeps_advance
    · exact h
  | age fuel when_ =>
    rw [next]
    split
    · exact h.final_call (Queue.keeps_purgeOlderThan fuel when_)
    · exact h
  | tick t => exact h.final_call (keeps_tickQueue t)

end Node

end Processors

/-! ## The wiring -/

namespace Service

variable {Point : Type} {s s' : Service Point}

/-- What a holder of the lock relies on. -/
def Relies (s : Service Point) : Holder → Prop
  | .pass _ (.looked k p _) | .pass _ (.inactive k p _) | .pass _ (.old k p) =>
    s.processors.lookup k = some p
  | .pass _ (.closed k p) => s.processors.lookup k = some p ∧ ¬ s.Running p
  | .free | .pass _ .next | .closing _ => True

/-- The processor at `p` is one of the node `k`. -/
def Of (s : Service Point) (p : NodePtr) (k : UInt64) : Prop := p < s.next ∧ (s.heap p).nodeID = k

/-- **The map and the calls point at processors of the right nodes.** -/
structure Wired (s : Service Point) : Prop where
  procs : ∀ p, (s.heap p).proc.Inv
  keys : ∀ k p, s.processors.lookup k = some p → s.Of p k
  calls : ∀ i w p, s.calls i = some w → w.processor = some p → s.Of p w.ownerID
  fresh : ∀ p, s.next ≤ p → ¬ s.Running p
  relies : s.Relies s.holder

/-- **One processor for a directory**: one that runs is the one in the map. -/
def Owned (s : Service Point) : Prop :=
  ∀ p, s.Running p → s.processors.lookup (s.heap p).nodeID = some p

/-- Then no two of one node run. -/
theorem Owned.unique (h : s.Owned) {p q : NodePtr} (hp : s.Running p) (hq : s.Running q)
    (hnode : (s.heap p).nodeID = (s.heap q).nodeID) : p = q := by
  have hlookup := h p hp
  rw [hnode, h q hq] at hlookup
  exact (Option.some.inj hlookup).symm

/-- No processor of the node that is in the map runs. -/
def Vacant (s : Service Point) (k : UInt64) : Prop :=
  ∀ p, s.processors.lookup k = some p → ¬ s.Running p

/-- The map is the same, and so are the processors but for what they hold; none is started. -/
structure Frame (s s' : Service Point) : Prop where
  processors : s'.processors = s.processors
  next : s'.next = s.next
  nodeID : ∀ p, (s'.heap p).nodeID = (s.heap p).nodeID
  running : ∀ p, s'.Running p → s.Running p
  procs : ∀ p, (s'.heap p).proc.Inv

/-- A processor stays the processor of its node. -/
theorem Frame.of (h : s.Frame s') {p : NodePtr} {k : UInt64} (hp : s.Of p k) : s'.Of p k :=
  ⟨Nat.lt_of_lt_of_eq hp.1 h.next.symm, (h.nodeID p).trans hp.2⟩

/-- What a holder of the lock relies on is still there. -/
theorem Frame.relies (h : s.Frame s') {holder : Holder} (hr : s.Relies holder) :
    s'.Relies holder := by
  cases holder with
  | free => trivial
  | closing left => trivial
  | pass left visit =>
    cases visit with
    | next => trivial
    | looked k p lm | inactive k p lm | old k p =>
      show s'.processors.lookup k = some p
      rw [h.processors]
      exact hr
    | closed k p =>
      refine ⟨?_, fun hrun => hr.2 (h.running p hrun)⟩
      rw [h.processors]
      exact hr.1

/-- No second goroutine for a node appears. -/
theorem Frame.owned (h : s.Frame s') (ho : s.Owned) : s'.Owned := by
  intro p hp
  rw [h.processors, h.nodeID p]
  exact ho p (h.running p hp)

/-- A frame, with calls that point at processors of their owners and a holder that may rely on what
    it does. -/
theorem Wired.frame (h : s.Wired) (hf : s.Frame s')
    (hcalls : ∀ i w p, s'.calls i = some w → w.processor = some p → s.Of p w.ownerID)
    (hrelies : s'.Relies s'.holder) : s'.Wired where
  procs := hf.procs
  keys := by
    intro k p hp
    rw [hf.processors] at hp
    exact hf.of (h.keys k p hp)
  calls := fun i w p hw hp => hf.of (hcalls i w p hw hp)
  fresh := by
    intro p hp hrun
    rw [hf.next] at hp
    exact h.fresh p hp (hf.running p hrun)
  relies := hrelies

/-- A step that changes nothing. -/
theorem Wired.refl_frame (h : s.Wired) : s.Frame s :=
  ⟨rfl, rfl, fun _ => rfl, fun _ hp => hp, h.procs⟩

/-- Another node at `p`, of the same name, that runs only if the old one did. -/
theorem Wired.update_frame (h : s.Wired) {p : NodePtr} {n : Node}
    (hid : n.nodeID = (s.heap p).nodeID) (hrun : n.proc.running = true → s.Running p)
    (hinv : n.proc.Inv) : s.Frame { s with heap := Function.update s.heap p n } := by
  refine ⟨rfl, rfl, fun q => ?_, fun q hq => ?_, fun q => ?_⟩
  · show (Function.update s.heap p n q).nodeID = _
    by_cases hqp : q = p
    · subst hqp
      rw [Function.update_self]
      exact hid
    · rw [Function.update_of_ne hqp]
  · have hq : (Function.update s.heap p n q).proc.running = true := hq
    by_cases hqp : q = p
    · subst hqp
      rw [Function.update_self] at hq
      exact hrun hq
    · rw [Function.update_of_ne hqp] at hq
      exact hq
  · show (Function.update s.heap p n q).proc.Inv
    by_cases hqp : q = p
    · subst hqp
      rw [Function.update_self]
      exact hinv
    · rw [Function.update_of_ne hqp]
      exact h.procs q

theorem Frame.setCall (hf : s.Frame s') (i : Nat) (w : Option (WriteCall Point)) :
    s.Frame (s'.setCall i w) := ⟨hf.processors, hf.next, hf.nodeID, hf.running, hf.procs⟩

/-- Taking or handing on the lock changes no processor. -/
theorem Frame.hold (hf : s.Frame s') (holder : Holder) : s.Frame (s'.hold holder) :=
  ⟨hf.processors, hf.next, hf.nodeID, hf.running, hf.procs⟩

/-! ### Methods of a processor -/

section Methods

variable {p : NodePtr} {n : Processor}

/-- A call on the queue of a processor. -/
theorem Wired.frame_call (h : s.Wired) {α : Type} {x : QM α} (hx : Keeps (OnQueue Queue.IsOpen) x)
    (hn : final (Processor.call x (s.heap p).proc) = n) : s.Frame (s.put p n) := by
  subst hn
  refine h.update_frame rfl (fun hrun => ?_) ((h.procs p).final_call hx)
  exact (Processor.final_call x (s.heap p).proc).2.symm.trans hrun

theorem Wired.frame_writeShard {c : PointCodec Point} (h : s.Wired) {shardID : UInt64}
    {points : List Point} (hn : final (Processor.writeShard c shardID points (s.heap p).proc) = n) :
    s.Frame (s.put p n) := by
  subst hn
  refine h.update_frame rfl (fun hrun => ?_) ((h.procs p).writeShard shardID points).2
  exact (Processor.final_writeShard shardID points (s.heap p).proc).symm.trans hrun

theorem Wired.frame_purge (h : s.Wired) {removed : Option OSErr}
    (hn : final (Processor.purge removed (s.heap p).proc) = n) : s.Frame (s.put p n) := by
  subst hn
  refine h.update_frame rfl (fun hrun => ?_) ((h.procs p).purge (c := mutePoints) removed).2
  exact (Processor.final_purge removed (s.heap p).proc).symm.trans hrun

/-- `Close` ends the goroutine. -/
theorem Wired.frame_close (h : s.Wired) (hn : final (Processor.close (s.heap p).proc) = n) :
    s.Frame (s.put p n) ∧ ¬ (s.put p n).Running p := by
  subst hn
  have hend := (h.procs p).final_close
  refine ⟨h.update_frame rfl (fun hrun => ?_) ((h.procs p).close (c := mutePoints)).2,
    fun hrun => ?_⟩
  · exact Bool.noConfusion (hend.symm.trans hrun)
  · have hrun : (Function.update s.heap p _ p).proc.running = true := hrun
    rw [Function.update_self] at hrun
    exact Bool.noConfusion (hend.symm.trans hrun)

/-- The map, the calls and the lock do not see what a processor holds. -/
theorem Wired.put (h : s.Wired) (hf : s.Frame (s.put p n)) : (s.put p n).Wired :=
  h.frame hf h.calls (hf.relies h.relies)

end Methods

/-- Another call under the number `i`. -/
theorem Wired.setCall (h : s.Wired) {i : Nat} {w : Option (WriteCall Point)}
    (hw : ∀ v p, w = some v → v.processor = some p → s.Of p v.ownerID) : (s.setCall i w).Wired := by
  refine h.frame ⟨rfl, rfl, fun _ => rfl, fun _ hp => hp, h.procs⟩ (fun j v p hv hp => ?_) h.relies
  by_cases hj : j = i
  · subst hj
    have hv : Function.update s.calls j w j = some v := hv
    rw [Function.update_self] at hv
    exact hw v p hv hp
  · have hv : Function.update s.calls i w j = some v := hv
    rw [Function.update_of_ne hj] at hv
    exact h.calls j v p hv hp

/-- The lock changes hands, and the next holder finds what it relies on. -/
theorem Wired.hold (h : s.Wired) {holder : Holder} (hr : s.Relies holder) :
    (s.hold holder).Wired :=
  h.frame ⟨rfl, rfl, fun _ => rfl, fun _ hp => hp, h.procs⟩ h.calls hr

/-! ## A new processor -/

/-- The service with a new processor for the node `k`, over the queue `q`. -/
def spawned (s : Service Point) (k : UInt64) (q : QState) : Service Point :=
  { s with
    processors := s.processors.insert k s.next
    heap := Function.update s.heap s.next
      { nodeID := k, proc := { done := true, queue := some q, running := true }, pc := .idle }
    next := s.next + 1 }

/-- A processor is entered only if it was opened. -/
theorem spawn_ok {k : UInt64} {a : Attempt} (h : s.spawn k a = .ok s') :
    ∃ q : OpenQueue, a = .opened q ∧ s' = s.spawned k q.1 := by
  rw [spawn, Processor.open_new] at h
  cases a with
  | mkdirAll e => cases h
  | queue e => cases h
  | opened q =>
    cases h
    exact ⟨q, rfl, rfl⟩

section Spawned

variable {k k' : UInt64} {q : QState} {p : NodePtr}

/-- The processor that is entered: open, with its goroutine. -/
theorem spawned_new : (s.spawned k q).heap s.next
    = { nodeID := k, proc := { done := true, queue := some q, running := true }, pc := .idle } :=
  Function.update_self _ _ _

theorem spawned_old (hp : p ≠ s.next) : (s.spawned k q).heap p = s.heap p :=
  Function.update_of_ne hp _ _

theorem spawned_running (hp : p ≠ s.next) : (s.spawned k q).Running p ↔ s.Running p := by
  rw [Running, spawned_old hp, Running]

theorem spawned_lookup_self : (s.spawned k q).processors.lookup k = some s.next :=
  AList.lookup_insert _

theorem spawned_lookup_ne (hk : k' ≠ k) :
    (s.spawned k q).processors.lookup k' = s.processors.lookup k' :=
  AList.lookup_insert_ne hk

/-- The other processors keep their nodes. -/
theorem Of.spawned (h : s.Of p k') : (s.spawned k q).Of p k' :=
  ⟨Nat.lt_succ_of_lt h.1, by rw [spawned_old (Nat.ne_of_lt h.1)]; exact h.2⟩

theorem of_spawned : (s.spawned k q).Of s.next k :=
  ⟨Nat.lt_succ_self _, by rw [spawned_new]⟩

/-- A processor is entered under the lock. -/
theorem Wired.spawned (h : s.Wired) (hfree : s.holder = .free) (hq : q.q.IsOpen) :
    (s.spawned k q).Wired := by
  refine ⟨fun p => ?_, fun k' p hp => ?_, fun i w p hw hp => (h.calls i w p hw hp).spawned,
    fun p hp hrun => ?_, ?_⟩
  · by_cases hpn : p = s.next
    · subst hpn
      rw [spawned_new]
      exact Processor.inv_serving rfl rfl hq rfl
    · rw [spawned_old hpn]
      exact h.procs p
  · by_cases hk : k' = k
    · subst hk
      rw [spawned_lookup_self] at hp
      cases hp
      exact of_spawned
    · rw [spawned_lookup_ne hk] at hp
      exact (h.keys k' p hp).spawned
  · have hlt : s.next < p := hp
    exact h.fresh p (Nat.le_of_lt hlt) ((spawned_running (Nat.ne_of_gt hlt)).mp hrun)
  · show Relies _ s.holder
    rw [hfree]
    trivial

/-- **A new processor leaves one for each directory exactly if the old one, if any, has ended.** -/
theorem Owned.spawned_iff (ho : s.Owned) (h : s.Wired) : (s.spawned k q).Owned ↔ s.Vacant k := by
  constructor
  · intro howned p hp hrun
    -- an old one that runs would be in the map, where the new one is
    have hne : p ≠ s.next := Nat.ne_of_lt (h.keys k p hp).1
    have hlookup := howned p ((spawned_running hne).mpr hrun)
    rw [spawned_old hne, (h.keys k p hp).2, spawned_lookup_self] at hlookup
    exact hne (Option.some.inj hlookup).symm
  · intro hvacant p hrun
    by_cases hpn : p = s.next
    · subst hpn
      rw [spawned_new, spawned_lookup_self]
    · replace hrun := (spawned_running hpn).mp hrun
      have hne : (s.heap p).nodeID ≠ k := fun hk => hvacant p (hk ▸ ho p hrun) hrun
      rw [spawned_old hpn, spawned_lookup_ne hne]
      exact ho p hrun

/-- **A processor that has lost its place in the map does not get it back.** -/
theorem not_owned_spawned (h : s.Wired) (hn : ¬ s.Owned) : ¬ (s.spawned k q).Owned := by
  obtain ⟨p, hp⟩ := Classical.not_forall.mp hn
  obtain ⟨hrun, hlookup⟩ := Classical.not_imp.mp hp
  have hne : p ≠ s.next := by
    rintro rfl
    exact h.fresh _ (Nat.le_refl _) hrun
  intro howned
  have hnew := howned p ((spawned_running hne).mpr hrun)
  rw [spawned_old hne] at hnew
  by_cases hk : (s.heap p).nodeID = k
  · rw [hk, spawned_lookup_self] at hnew
    exact hne (Option.some.inj hnew).symm
  · rw [spawned_lookup_ne hk] at hnew
    exact hlookup hnew

/-- The new processor runs, and nothing else has changed. -/
theorem Wired.vacant_spawned (h : s.Wired) :
    (s.spawned k q).Vacant k' ↔ k' ≠ k ∧ s.Vacant k' := by
  constructor
  · intro hv
    have hne : k' ≠ k := by
      rintro rfl
      refine hv s.next spawned_lookup_self ?_
      rw [Running, spawned_new]
    refine ⟨hne, fun p hp hrun => hv p ((spawned_lookup_ne hne).trans hp) ?_⟩
    exact (spawned_running (Nat.ne_of_lt (h.keys k' p hp).1)).mpr hrun
  · rintro ⟨hne, hv⟩ p hp hrun
    rw [spawned_lookup_ne hne] at hp
    exact hv p hp ((spawned_running (Nat.ne_of_lt (h.keys k' p hp).1)).mp hrun)

end Spawned

/-! ## `Open` -/

/-- The nodes whose processors `Open` opens. -/
def openedIDs : List (FileName × Attempt) → List UInt64
  | [] => []
  | (name, a) :: entries =>
    match parseNodeID name with
    | none => openedIDs entries
    | some nodeID =>
      match a with
      | .opened _ => nodeID :: openedIDs entries
      | .mkdirAll _ | .queue _ => []

/-- What an entry of the root directory does. -/
theorem openEntries_cons (s : Service Point) (name : FileName) (a : Attempt)
    (entries : List (FileName × Attempt)) :
    (parseNodeID name = none ∧ s.openEntries ((name, a) :: entries) = s.openEntries entries ∧
        openedIDs ((name, a) :: entries) = openedIDs entries) ∨
      (∃ k, ∃ q : OpenQueue, parseNodeID name = some k ∧ a = .opened q ∧
        s.openEntries ((name, a) :: entries) = (s.spawned k q.1).openEntries entries ∧
        openedIDs ((name, a) :: entries) = k :: openedIDs entries) ∨
      (s.openEntries ((name, a) :: entries) = s ∧ openedIDs ((name, a) :: entries) = []) := by
  rw [openEntries, openedIDs]
  cases parseNodeID name with
  | none => exact .inl ⟨rfl, rfl, rfl⟩
  | some k =>
    cases a with
    | opened q => exact .inr (.inl ⟨k, q, rfl, rfl, rfl, rfl⟩)
    | mkdirAll e => exact .inr (.inr ⟨rfl, rfl⟩)
    | queue e => exact .inr (.inr ⟨rfl, rfl⟩)

/-- What a new processor keeps `Open` keeps. -/
theorem openEntries_inv {J : Service Point → Prop}
    (hJ : ∀ (t : Service Point) (k : UInt64) (q : OpenQueue), J t → J (t.spawned k q.1)) (h : J s)
    (entries : List (FileName × Attempt)) : J (s.openEntries entries) := by
  induction entries generalizing s with
  | nil => exact h
  | cons e entries ih =>
    obtain ⟨-, he, -⟩ | ⟨k, q, -, -, he, -⟩ | ⟨he, -⟩ := openEntries_cons s e.1 e.2 entries
    · rw [he]
      exact ih h
    · rw [he]
      exact ih (hJ s k q h)
    · rw [he]
      exact h

/-- The loop over the directories, one processor after the other. -/
theorem Wired.openEntries (h : s.Wired) (hfree : s.holder = .free)
    (entries : List (FileName × Attempt)) : (s.openEntries entries).Wired :=
  (openEntries_inv (J := fun t => t.Wired ∧ t.holder = .free)
    (fun _ _ q ht => ⟨ht.1.spawned ht.2 q.2, ht.2⟩) ⟨h, hfree⟩ entries).1

/-- The loop does not repair a node with two goroutines. -/
theorem not_owned_openEntries (h : s.Wired) (hfree : s.holder = .free) (hn : ¬ s.Owned)
    (entries : List (FileName × Attempt)) : ¬ (s.openEntries entries).Owned := by
  induction entries generalizing s with
  | nil => exact hn
  | cons e entries ih =>
    obtain ⟨-, he, -⟩ | ⟨k, q, -, -, he, -⟩ | ⟨he, -⟩ := openEntries_cons s e.1 e.2 entries
    · rw [he]
      exact ih h hfree hn
    · rw [he]
      exact ih (h.spawned hfree q.2) hfree (not_owned_spawned h hn)
    · rw [he]
      exact hn

/-- **`Open` leaves one processor for each directory exactly if the numbers that it finds are
    distinct and no processor of them runs.** -/
theorem Owned.openEntries_iff (ho : s.Owned) (h : s.Wired) (hfree : s.holder = .free)
    (entries : List (FileName × Attempt)) :
    (s.openEntries entries).Owned
      ↔ (openedIDs entries).Nodup ∧ ∀ k ∈ openedIDs entries, s.Vacant k := by
  have hnone : ∀ t : Service Point,
      ([] : List UInt64).Nodup ∧ ∀ k ∈ ([] : List UInt64), t.Vacant k :=
    fun t => ⟨List.nodup_nil, fun k hk => absurd hk List.not_mem_nil⟩
  induction entries generalizing s with
  | nil => exact iff_of_true ho (hnone s)
  | cons e entries ih =>
    obtain ⟨-, he, hids⟩ | ⟨k, q, -, -, he, hids⟩ | ⟨he, hids⟩ :=
      openEntries_cons s e.1 e.2 entries
    · rw [he, hids]
      exact ih ho h hfree
    · rw [he, hids, List.nodup_cons, List.forall_mem_cons]
      have ht : (s.spawned k q.1).Wired := h.spawned hfree q.2
      by_cases hvacant : s.Vacant k
      · refine (ih ((ho.spawned_iff h).mpr hvacant) ht hfree).trans ?_
        -- the new processor runs, so its number must not come again
        constructor
        · rintro ⟨hnodup, hrest⟩
          refine ⟨⟨fun hk => ?_, hnodup⟩, hvacant, fun k' hk' => ?_⟩
          · exact (h.vacant_spawned.mp (hrest k hk)).1 rfl
          · exact (h.vacant_spawned.mp (hrest k' hk')).2
        · rintro ⟨⟨hk, hnodup⟩, -, hrest⟩
          refine ⟨hnodup, fun k' hk' => h.vacant_spawned.mpr ⟨?_, hrest k' hk'⟩⟩
          rintro rfl
          exact hk hk'
      · refine iff_of_false ?_ fun hall => hvacant hall.2.1
        exact not_owned_openEntries ht hfree (fun hto => hvacant ((ho.spawned_iff h).mp hto)) entries
    · rw [he, hids]
      exact iff_of_true ho (hnone s)

end Service

/-! ## Runs -/

section Runs

variable {Point : Type} {c : PointCodec Point} {maxAge : Nat} {s s' : Service Point}
  {op : ServiceOp Point}

open Service

/-- An `Open` finds distinct numbers, and no processor of them that runs. -/
def ServiceOp.Fresh (s : Service Point) : ServiceOp Point → Prop
  | .opens entries => (openedIDs entries).Nodup ∧ ∀ k ∈ openedIDs entries, s.Vacant k
  | _ => True

/-- **Every step keeps the wiring.** -/
theorem ServiceOp.Does.wired (hd : ServiceOp.Does c maxAge s op s') (h : s.Wired) : s'.Wired := by
  have hrelies := h.relies
  cases hd with
  | opens hfree => exact h.openEntries hfree _
  | lookup hfree hnew =>
    refine h.setCall fun v p hv hp => ?_
    cases hv
    exact h.keys _ p hp
  | again hfree hcall hthere =>
    refine h.setCall fun v p hv hp => ?_
    cases hv
    cases hp
    exact h.keys _ _ hthere
  | created hfree hcall hnone hspawn =>
    obtain ⟨q, -, rfl⟩ := spawn_ok hspawn
    refine (h.spawned hfree q.2).setCall fun v p hv hp => ?_
    cases hv
    cases hp
    exact of_spawned
  | uncreated hfree => exact h.setCall fun v p hv => by cases hv
  | accepted hcall hwrite =>
    rename_i i shardID ownerID points p n
    have hw := (h.put (h.frame_writeShard (congrArg final hwrite))).setCall
      (i := i) (w := none) fun v p hv => by cases hv
    exact ⟨hw.procs, hw.keys, hw.calls, hw.fresh, hw.relies⟩
  | refused hcall hwrite =>
    exact (h.put (h.frame_writeShard (congrArg final hwrite))).setCall fun v p hv => by cases hv
  | move hrun =>
    rename_i p m
    have hframe := h.update_frame (Node.next_same (c := c) (s.heap p) m).1 (fun _ => hrun)
      (Node.next_inv (c := c) (h.procs p) m)
    have hw := h.frame hframe h.calls (hframe.relies hrelies)
    exact ⟨hw.procs, hw.keys, hw.calls, hw.fresh, hw.relies⟩
  | passBegin hfree => exact h.hold trivial
  | looked hpass hthere hread =>
    exact (h.put (h.frame_call keeps_lastModified (congrArg final hread))).hold hthere
  | unread hpass hthere hread =>
    exact (h.put (h.frame_call keeps_lastModified (congrArg final hread))).hold trivial
  | inactive hpass hnode =>
    rw [hpass] at hrelies
    exact h.hold hrelies
  | active hpass => exact h.hold trivial
  | old hpass hold =>
    rw [hpass] at hrelies
    exact h.hold hrelies
  | young hpass => exact h.hold trivial
  | closed hpass hidle hclose =>
    rw [hpass] at hrelies
    obtain ⟨hframe, hend⟩ := h.frame_close (congrArg final hclose)
    exact (h.put hframe).hold ⟨hrelies, hend⟩
  | unclosed hpass hidle hclose =>
    exact (h.put (h.frame_close (congrArg final hclose)).1).hold trivial
  | removed hpass hpurge =>
    rename_i r left k p n
    have hw : ((s.put p n).hold (.pass left .next)).Wired :=
      (h.put (h.frame_purge (congrArg final hpurge))).hold trivial
    refine ⟨hw.procs, fun k' q hq => ?_, hw.calls, hw.fresh, trivial⟩
    have hq : (s.processors.erase k).lookup k' = some q := hq
    have hne : k' ≠ k := by
      rintro rfl
      rw [AList.lookup_erase] at hq
      cases hq
    rw [AList.lookup_erase_ne hne] at hq
    exact hw.keys k' q hq
  | unremoved hpass hpurge =>
    exact (h.put (h.frame_purge (congrArg final hpurge))).hold trivial
  | passEnd hpass => exact h.hold trivial
  | closeBegin hfree => exact h.hold trivial
  | closedNode hclosing hthere hidle hclose =>
    exact (h.put (h.frame_close (congrArg final hclose)).1).hold trivial
  | unclosedNode hclosing hthere hidle hclose =>
    exact (h.put (h.frame_close (congrArg final hclose)).1).hold trivial
  | closeEnd hclosing => exact h.hold trivial

/-- **What one step does to the ownership.**  Only `Open` can break it. -/
theorem ServiceOp.Does.owned_iff (hd : ServiceOp.Does c maxAge s op s') (h : s.Wired)
    (ho : s.Owned) : s'.Owned ↔ op.Fresh s := by
  have hrefl := h.refl_frame
  cases hd with
  | opens hfree => exact ho.openEntries_iff h hfree _
  | lookup hfree hnew => exact iff_of_true ((hrefl.setCall _ _).owned ho) trivial
  | again hfree hcall hthere => exact iff_of_true ((hrefl.setCall _ _).owned ho) trivial
  | created hfree hcall hnone hspawn =>
    -- the second look-up found nothing, so nothing of the node runs
    obtain ⟨q, -, rfl⟩ := spawn_ok hspawn
    have howned := (ho.spawned_iff h (q := q.1)).mpr fun p hp => by
      rw [hnone] at hp
      cases hp
    exact iff_of_true (fun p hp => howned p hp) trivial
  | uncreated hfree => exact iff_of_true ((hrefl.setCall _ _).owned ho) trivial
  | accepted hcall hwrite =>
    have hf := (h.frame_writeShard (congrArg final hwrite)).owned ho
    exact iff_of_true (fun p hp => hf p hp) trivial
  | refused hcall hwrite =>
    exact iff_of_true (((h.frame_writeShard (congrArg final hwrite)).setCall _ _).owned ho) trivial
  | move hrun =>
    rename_i p m
    have hf := (h.update_frame (Node.next_same (c := c) (s.heap p) m).1 (fun _ => hrun)
      (Node.next_inv (c := c) (h.procs p) m)).owned ho
    exact iff_of_true (fun p hp => hf p hp) trivial
  | looked hpass hthere hread =>
    exact iff_of_true
      (((h.frame_call keeps_lastModified (congrArg final hread)).hold _).owned ho) trivial
  | unread hpass hthere hread =>
    exact iff_of_true
      (((h.frame_call keeps_lastModified (congrArg final hread)).hold _).owned ho) trivial
  | closed hpass hidle hclose =>
    exact iff_of_true (((h.frame_close (congrArg final hclose)).1.hold _).owned ho) trivial
  | unclosed hpass hidle hclose =>
    exact iff_of_true (((h.frame_close (congrArg final hclose)).1.hold _).owned ho) trivial
  | removed hpass hpurge =>
    rename_i r left k p n
    refine iff_of_true (fun q hq => ?_) trivial
    have hframe : s.Frame (s.put p n) := h.frame_purge (congrArg final hpurge)
    have hlookup : s.processors.lookup ((s.put p n).heap q).nodeID = some q := hframe.owned ho q hq
    -- the processor that goes has been closed, and no other one of its node runs
    have hrelies := h.relies
    rw [hpass] at hrelies
    refine (AList.lookup_erase_ne fun hk => ?_).trans hlookup
    have hk : ((s.put p n).heap q).nodeID = k := hk
    rw [hk] at hlookup
    cases hrelies.1.symm.trans hlookup
    exact hrelies.2 (hframe.running p hq)
  | unremoved hpass hpurge =>
    exact iff_of_true (((h.frame_purge (congrArg final hpurge)).hold _).owned ho) trivial
  | closedNode hclosing hthere hidle hclose =>
    exact iff_of_true (((h.frame_close (congrArg final hclose)).1.hold _).owned ho) trivial
  | unclosedNode hclosing hthere hidle hclose =>
    exact iff_of_true (((h.frame_close (congrArg final hclose)).1.hold _).owned ho) trivial
  | passBegin _ | inactive _ _ | active _ | old _ _ | young _ | passEnd _ | closeBegin _
  | closeEnd _ => exact iff_of_true ((hrefl.hold _).owned ho) trivial

theorem Service.wired_new : (new : Service Point).Wired := by
  refine ⟨fun _ => Processor.inv_new, fun k p hp => ?_, fun i w p hw _ => ?_, fun p _ hrun => ?_,
    trivial⟩
  · have hp : (∅ : AList fun _ : UInt64 => NodePtr).lookup k = some p := hp
    rw [AList.lookup_empty] at hp
    cases hp
  · cases hw
  · exact Bool.noConfusion hrun

/-- **One processor for a directory, exactly as long as `Open` is careful.**  Over any run of
    `Open`, any number of calls of `WriteShard`, the goroutines of the processors, passes of
    `purgeInactiveProcessors` and `Close`, in any order and whatever their file operations answer,
    every processor that runs is the one in the map — if and only if each `Open` finds distinct
    numbers among the names in the root directory and no processor of them that runs. -/
theorem service_owned_iff (c : PointCodec Point) (maxAge : Nat) (ops : List (ServiceOp Point)) :
    (∀ k s, (ops.take k).foldlM (ServiceOp.step c maxAge) .new = some s → s.Owned)
      ↔ Along (ServiceOp.step c maxAge)
          (fun s op => (ServiceOp.step c maxAge s op).isSome → op.Fresh s) .new ops :=
  foldlM_take_inv_iff (J := Wired)
    (fun _ _ _ h hstep => (ServiceOp.does_of_step c maxAge hstep).wired h)
    (fun _ _ _ h ho hstep => (ServiceOp.does_of_step c maxAge hstep).owned_iff h ho) ops
    wired_new fun _ hp => Bool.noConfusion hp

/-- Two names of one node. -/
example (q : OpenQueue) : openedIDs [(['0', '0', '7'], .opened q), (['7'], .opened q)] = [7, 7] :=
  rfl

end Runs

end InfluxCluster.HH
