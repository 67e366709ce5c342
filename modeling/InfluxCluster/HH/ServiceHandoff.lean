/-
  Hinted handoff through the service: hints for many nodes, in order, each at most once, and to the
  right node.

  The service is a SYSTEM OF SENDERS.  Each processor that runs is the sender of `Handoff` over the
  queue that it was opened on (`Node.Carries`): a `WriteShard` that has found it is one of its
  writers, its goroutine makes its moves, and what the service does besides — look-ups, the reading
  of `LastModified`, the lock — leaves it alone.  So what one processor accepts it delivers in order.

  GENERATIONS.  A pass may remove the processor of a node, with the hints that it still holds, and a
  later hint makes a new one over the directory that `Purge` has emptied (`Swept`).  At most one of a
  node runs (`Owned`), `Close` waits for the goroutine and a closed processor accepts nothing, so the
  generations of a node do not overlap: what the node has received is a SUBSEQUENCE of what was
  accepted for it (`service_in_order`).

  As in `Handoff`, nothing fails on disk here and the goroutine does not age its queue; the service
  is open.
-/
import InfluxCluster.HH.Purge
import InfluxCluster.HH.ServiceDirectories

namespace InfluxCluster.HH

open InfluxCluster.Lib
open scoped List

/-! ## One processor is a sender -/

/-- A part of `SendWrite`, or the clock. -/
def NodeMove.Sends {Point : Type} : NodeMove Point → Prop
  | .age _ _ => False
  | .begin _ | .fetch | .deliver _ | .advance | .tick _ => True

/-- The processor is where a sender with its histories is. -/
structure Node.Tracks {Point : Type} (n : Node) (h : Handoff Point) : Prop where
  queue : n.proc.queue = some h.w.s
  pc : n.pc = h.pc

/-- **What a processor has accepted and delivered** since it was opened; what it found in its
    directory counts as accepted. -/
def Node.Carries {Point : Type} (c : PointCodec Point) (n : Node)
    (accepted delivered : List (UInt64 × List Point)) : Prop :=
  ∃ s₀ chain, ∃ h : Handoff Point, Good s₀ chain ∧ HandoffRun c n.nodeID s₀ h ∧ n.Tracks h ∧
    accepted = (Chain.content (logs chain)).filterMap (decoded c) ++ h.accepted ∧
    delivered = h.delivered

section Carries

variable {Point : Type} {c : PointCodec Point} {s₀ : QState} {n : Node} {h : Handoff Point}
  {acc del : List (UInt64 × List Point)}

theorem Processor.call_some {α : Type} {n : Processor} {q : QState} (hq : n.queue = some q)
    (x : QM α) : Processor.call x n =
      match x q with
      | .ok a q' => .ok a { n with queue := some q' }
      | .error e q' => .error (.queue e) { n with queue := some q' } := by
  cases hx : x q with
  | ok a q' => simp only [Processor.call, hq, hx]
  | error e q' => simp only [Processor.call, hq, hx]

/-- **A move of the goroutine is a move of the sender.** -/
theorem Node.Tracks.next (ht : n.Tracks h) (hrun : HandoffRun c n.nodeID s₀ h) {m : NodeMove Point}
    (hm : m.Sends) : ∃ h', HandoffRun c n.nodeID s₀ h' ∧ (n.next c m).Tracks h' ∧
      h'.accepted = h.accepted ∧ h'.delivered = h.delivered ++ n.sent c m := by
  obtain ⟨hq, hpc⟩ := ht
  cases m with
  | age fuel when_ => exact hm.elim
  | begin env =>
    refine ⟨_, hrun.step (m := .begin env) trivial, ?_⟩
    rw [Node.next, Handoff.next, ← hpc]
    cases hn : n.pc with
    | active | fetched _ | advancing _ =>
      exact ⟨⟨hq, hpc⟩, rfl, (List.append_nil _).symm⟩
    | idle =>
      rcases env.dataNode n.nodeID with _ | _ | _
      · exact ⟨⟨hq, hpc⟩, rfl, (List.append_nil _).symm⟩
      · exact ⟨⟨hq, hpc⟩, rfl, (List.append_nil _).symm⟩
      · exact ⟨⟨hq, rfl⟩, rfl, (List.append_nil _).symm⟩
  | fetch =>
    refine ⟨_, hrun.step (m := .fetch) trivial, ?_⟩
    rw [Node.next, Handoff.next, ← hpc, Processor.call_some hq]
    cases hn : n.pc with
    | idle | fetched _ | advancing _ => exact ⟨⟨hq, hpc⟩, rfl, (List.append_nil _).symm⟩
    | active =>
      dsimp only [World.next]
      cases Queue.current h.w.s with
      | ok buf s => exact ⟨⟨rfl, rfl⟩, rfl, (List.append_nil _).symm⟩
      | error e s => exact ⟨⟨rfl, rfl⟩, rfl, (List.append_nil _).symm⟩
  | deliver env =>
    refine ⟨_, hrun.step (m := .deliver env) trivial, ?_⟩
    rw [Node.next, Node.sent, Handoff.next, ← hpc]
    cases hn : n.pc with
    | idle | active | advancing _ => exact ⟨⟨hq, hpc⟩, rfl, (List.append_nil _).symm⟩
    | fetched buf => exact ⟨⟨hq, rfl⟩, rfl, rfl⟩
  | advance =>
    refine ⟨_, hrun.step (m := .advance) trivial, ?_⟩
    rw [Node.next, Handoff.next, ← hpc, Processor.call_some hq]
    cases hn : n.pc with
    | idle | active | fetched _ => exact ⟨⟨hq, hpc⟩, rfl, (List.append_nil _).symm⟩
    | advancing buf =>
      dsimp only [World.next]
      cases Queue.advance h.w.s with
      | ok u s => exact ⟨⟨rfl, rfl⟩, rfl, (List.append_nil _).symm⟩
      | error e s => exact ⟨⟨rfl, rfl⟩, rfl, (List.append_nil _).symm⟩
  | tick t =>
    refine ⟨_, hrun.step (m := .tick t) trivial, ?_⟩
    rw [Node.next, Handoff.next, Processor.call_some hq]
    exact ⟨⟨rfl, hpc⟩, rfl, (List.append_nil _).symm⟩

/-- A move of the sender: what it delivers leaves the queue. -/
theorem Node.Carries.next (hc : n.Carries c acc del) {m : NodeMove Point} (hm : m.Sends) :
    (n.next c m).Carries c acc (del ++ n.sent c m) := by
  obtain ⟨s₀, chain, h, hgood, hrun, ht, rfl, rfl⟩ := hc
  obtain ⟨h', hrun', ht', haccepted, hdelivered⟩ := ht.next hrun hm
  refine ⟨s₀, chain, h', hgood, ?_, ht', by rw [haccepted], hdelivered.symm⟩
  rw [(Node.next_same n m).1]
  exact hrun'

/-- A processor that runs writes to its queue. -/
theorem Processor.writeShard_open {n : Processor} {q : QState} (hd : n.done = true)
    (hq : n.queue = some q) (shardID : UInt64) (points : List Point) :
    Processor.writeShard c shardID points n =
      match Queue.append (marshalWrite c shardID points) q with
      | .ok a q' => .ok a { n with queue := some q' }
      | .error e q' => .error (.queue e) { n with queue := some q' } := by
  have hopen : ¬ n.done = false := by
    rw [hd]
    exact Bool.noConfusion
  rw [Processor.writeShard, bind_ok (Processor.self_run n), if_neg hopen]
  show Processor.call (Queue.append (marshalWrite c shardID points)) n = _
  rw [Processor.call_some hq]
  cases Queue.append (marshalWrite c shardID points) q with
  | ok a q' => rfl
  | error e q' => rfl

/-- A write that is accepted. -/
theorem Node.Carries.accepted (hc : n.Carries c acc del) (hd : n.proc.done = true)
    {shardID : UInt64} {points : List Point}
    (hroom : ∀ q, n.proc.queue = some q → q.Roomy (marshalWrite c shardID points)) {p : Processor}
    (hwrite : Processor.writeShard c shardID points n.proc = .ok () p) :
    Node.Carries c { n with proc := p } (acc ++ [(shardID, points)]) del := by
  obtain ⟨s₀, chain, h, hgood, hrun, ht, rfl, rfl⟩ := hc
  have hstep := hrun.step (m := .writeShard shardID points) (hroom _ ht.queue)
  rw [Processor.writeShard_open hd ht.queue] at hwrite
  cases happend : Queue.append (marshalWrite c shardID points) h.w.s with
  | error e q =>
    rw [happend] at hwrite
    cases hwrite
  | ok u q =>
    rw [happend] at hwrite
    cases hwrite
    simp only [Handoff.next, World.next, happend] at hstep
    refine ⟨s₀, chain, _, hgood, hstep, ⟨rfl, ht.pc⟩, ?_, rfl⟩
    rw [List.append_assoc]

/-- A write that is refused. -/
theorem Node.Carries.refused (hc : n.Carries c acc del) (hd : n.proc.done = true)
    {shardID : UInt64} {points : List Point}
    (hroom : ∀ q, n.proc.queue = some q → q.Roomy (marshalWrite c shardID points)) {p : Processor}
    {e : ProcErr} (hwrite : Processor.writeShard c shardID points n.proc = .error e p) :
    Node.Carries c { n with proc := p } acc del := by
  obtain ⟨s₀, chain, h, hgood, hrun, ht, rfl, rfl⟩ := hc
  have hstep := hrun.step (m := .writeShard shardID points) (hroom _ ht.queue)
  rw [Processor.writeShard_open hd ht.queue] at hwrite
  cases happend : Queue.append (marshalWrite c shardID points) h.w.s with
  | ok u q =>
    rw [happend] at hwrite
    cases hwrite
  | error e q =>
    rw [happend] at hwrite
    cases hwrite
    simp only [Handoff.next, World.next, happend] at hstep
    exact ⟨s₀, chain, _, hgood, hstep, ⟨rfl, ht.pc⟩, rfl, rfl⟩

/-- The invariant of the sender's queue. -/
theorem HandoffRun.inv {nodeID : UInt64} (hrun : HandoffRun c nodeID s₀ h)
    {chain : List (Ptr × Log Bytes)} (hgood : Good s₀ chain) :
    ∃ chain', Inv (Chain.content (logs chain)) h.w chain' := hrun.simulates.run.inv hgood

/-- `LastModified` of a processor that runs changes nothing. -/
theorem Node.Carries.lastModified (hc : n.Carries c acc del) :
    final (Processor.call Queue.lastModified n.proc) = n.proc := by
  obtain ⟨s₀, chain, h, hgood, hrun, ht, -, -⟩ := hc
  obtain ⟨chain', hi⟩ := hrun.inv hgood
  obtain ⟨t, hread⟩ := hi.good.exists_lastModified
  rw [Processor.call_some ht.queue, hread, final_ok, ← ht.queue]

/-- Every accepted block can be read. -/
theorem Simulates.accepted_decoded (hc : c.Inverts) (hs : Simulates c s₀ h) :
    h.w.accepted.filterMap (decoded c) = h.accepted := by
  rw [hs.accepted, List.filterMap_map]
  refine (List.filterMap_congr fun x _ => ?_).trans List.filterMap_some
  exact decoded_marshalWrite hc x.1 x.2

/-- **One processor delivers in order.** -/
theorem Node.Carries.in_order (hc : c.Inverts) (hn : n.Carries c acc del) : del <+: acc := by
  obtain ⟨s₀, chain, h, hgood, hrun, -, rfl, rfl⟩ := hn
  obtain ⟨chain', hi⟩ := hrun.inv hgood
  have hpre := hrun.simulates.in_order_of_inv hi
  rw [List.filterMap_append, hrun.simulates.accepted_decoded hc] at hpre
  exact hpre

/-- **Between two calls of `SendWrite`, what a processor has not delivered is in its queue.** -/
theorem Node.Carries.kept (hc : c.Inverts) (hn : n.Carries c acc del) (hidle : n.pc = .idle) :
    ∃ q rem, n.proc.queue = some q ∧ content q = some rem ∧
      acc = del ++ rem.filterMap (decoded c) := by
  obtain ⟨s₀, chain, h, hgood, hrun, ht, rfl, rfl⟩ := hn
  obtain ⟨chain', hi⟩ := hrun.inv hgood
  have hs := hrun.simulates
  refine ⟨h.w.s, _, ht.queue, hi.good.toRep.content_eq layout_clean, ?_⟩
  have hfifo := congrArg (List.filterMap (decoded c)) hi.fifo
  have hdelivered := hs.delivered
  rw [← ht.pc, hidle, PC.pending, List.append_nil] at hdelivered
  rw [List.filterMap_append, List.filterMap_append, hs.accepted_decoded hc, ← hdelivered] at hfifo
  exact hfifo

/-- A processor over a queue that has just been opened. -/
theorem Node.Carries.start {k : UInt64} {q : QState} {chain : List (Ptr × Log Bytes)}
    (hgood : Good q chain) :
    Node.Carries c
      { nodeID := k, proc := { done := true, queue := some q, running := true }, pc := .idle }
      ((Chain.content (logs chain)).filterMap (decoded c)) [] :=
  ⟨q, chain, Handoff.start q, hgood, .start, ⟨rfl, rfl⟩, (List.append_nil _).symm, rfl⟩

end Carries

/-! ## The hints of one node -/

section Hints

variable {Point : Type} {k : UInt64}

/-- The hints for the node `k` in a history. -/
def hintsFor (k : UInt64) (l : List (Hint Point)) : List (UInt64 × List Point) :=
  (l.filter fun h => h.nodeID = k).map fun h => (h.shardID, h.points)

theorem hintsFor_append (l l' : List (Hint Point)) :
    hintsFor k (l ++ l') = hintsFor k l ++ hintsFor k l' := by
  rw [hintsFor, List.filter_append, List.map_append]
  rfl

/-- Hints that all are for one node. -/
theorem hintsFor_self (l : List (UInt64 × List Point)) :
    hintsFor k (l.map fun x => ⟨k, x.1, x.2⟩) = l := by
  rw [hintsFor, List.filter_eq_self.mpr, List.map_map]
  · exact List.map_id l
  · intro h hh
    obtain ⟨x, -, rfl⟩ := List.mem_map.mp hh
    exact decide_eq_true rfl

/-- What is for another node is not for this one. -/
theorem hintsFor_ne {k' : UInt64} (hne : k' ≠ k) (l : List (UInt64 × List Point)) :
    hintsFor k (l.map fun x => ⟨k', x.1, x.2⟩) = [] := by
  rw [hintsFor, List.filter_eq_nil_iff.mpr, List.map_nil]
  intro h hh
  obtain ⟨x, -, rfl⟩ := List.mem_map.mp hh
  exact fun hk => hne (of_decide_eq_true hk)

theorem hintsFor_append_self (l : List (Hint Point)) (l' : List (UInt64 × List Point)) :
    hintsFor k (l ++ l'.map fun x => ⟨k, x.1, x.2⟩) = hintsFor k l ++ l' := by
  rw [hintsFor_append, hintsFor_self]

theorem hintsFor_append_ne {k' : UInt64} (hne : k' ≠ k) (l : List (Hint Point))
    (l' : List (UInt64 × List Point)) :
    hintsFor k (l ++ l'.map fun x => ⟨k', x.1, x.2⟩) = hintsFor k l := by
  rw [hintsFor_append, hintsFor_ne hne, List.append_nil]

end Hints

/-! ## The flow of hints through the service -/

section Flow

variable {Point : Type} {c : PointCodec Point} {maxAge : Nat} {s s' : Service Point}
  {op : ServiceOp Point}
  {R : List (UInt64 × List Point) → List (UInt64 × List Point) → Prop}

open Service

/-- The processor has added what it has delivered to what those before it delivered (`gone`); with
    what it has accepted instead, that is what was accepted for the node, up to `R`. -/
def Node.Flows (R : List (UInt64 × List Point) → List (UInt64 × List Point) → Prop)
    (c : PointCodec Point) (n : Node) (accepted delivered : List (Hint Point)) : Prop :=
  ∃ gone acc del, n.Carries c acc del ∧ hintsFor n.nodeID delivered = gone ++ del ∧
    R (gone ++ acc) (hintsFor n.nodeID accepted)

/-- **Every processor that runs carries its part of the hints.** -/
def Service.Flow (R : List (UInt64 × List Point) → List (UInt64 × List Point) → Prop)
    (c : PointCodec Point) (s : Service Point) : Prop :=
  ∀ p, s.Running p → (s.heap p).Flows R c s.accepted s.delivered

/-- The block of a call fits on the disk. -/
def Service.HasRoom (c : PointCodec Point) (s : Service Point) : Option (WriteCall Point) → Prop
  | some ⟨shardID, _, points, some p⟩ =>
    ∀ q ∈ (s.heap p).proc.queue, q.Roomy (marshalWrite c shardID points)
  | some ⟨_, _, _, none⟩ | none => True

/-- The service is open, blocks fit on the disk, and queues do not age. -/
def ServiceOp.Clean (c : PointCodec Point) (s : Service Point) : ServiceOp Point → Prop
  | .opens _ => False
  | .write i => s.HasRoom c (s.calls i)
  | .move _ m => m.Sends
  | _ => True

instance : (m : NodeMove Point) → Decidable m.Sends
  | .age _ _ => instDecidableFalse
  | .begin _ | .fetch | .deliver _ | .advance | .tick _ => instDecidableTrue

instance (s : Service Point) : (w : Option (WriteCall Point)) → Decidable (s.HasRoom c w)
  | some ⟨_, _, _, some p⟩ =>
    inferInstanceAs (Decidable (∀ q ∈ (s.heap p).proc.queue, q.Roomy _))
  | some ⟨_, _, _, none⟩ | none => instDecidableTrue

instance (s : Service Point) : (op : ServiceOp Point) → Decidable (op.Clean c s)
  | .opens _ => instDecidableFalse
  | .write i => inferInstanceAs (Decidable (s.HasRoom c (s.calls i)))
  | .move _ m => inferInstanceAs (Decidable m.Sends)
  | .lookup _ _ _ _ | .create _ _ | .passBegin | .lastModified _ | .active _ | .check _ | .close
  | .purge _ | .passEnd | .closeBegin | .closeNode _ | .closeEnd => instDecidableTrue

theorem ServiceOp.Clean.roomy {i : Nat} {shardID ownerID : UInt64} {points : List Point}
    {p : NodePtr} (h : (ServiceOp.write i).Clean c s)
    (hcall : s.calls i = some ⟨shardID, ownerID, points, some p⟩) (q : QState)
    (hq : (s.heap p).proc.queue = some q) : q.Roomy (marshalWrite c shardID points) := by
  rw [ServiceOp.Clean, hcall] at h
  exact h q hq

/-- Only `Open` makes processors without a look at the map. -/
theorem ServiceOp.Clean.fresh (h : op.Clean c s) : op.Fresh s := by
  cases op with
  | opens entries => exact h.elim
  | _ => trivial

/-- Nothing that runs has changed. -/
theorem Service.Flow.same (h : s.Flow R c) (hheap : ∀ p, s'.Running p → s'.heap p = s.heap p)
    (haccepted : s'.accepted = s.accepted) (hdelivered : s'.delivered = s.delivered) :
    s'.Flow R c := by
  intro p hp
  have hrun : s.Running p := by
    rw [Running, ← hheap p hp]
    exact hp
  rw [hheap p hp, haccepted, hdelivered]
  exact h p hrun

/-- `LastModified` of any processor, as far as those that run are concerned. -/
theorem Service.Flow.put_lastModified (h : s.Flow R c) (hw : s.Wired) {p q : NodePtr}
    {n : Processor} (hn : final (Processor.call Queue.lastModified (s.heap p).proc) = n)
    (hq : (s.put p n).Running q) : (s.put p n).heap q = s.heap q := by
  by_cases hp : s.Running p
  · obtain ⟨gone, acc, del, hcarries, -⟩ := h p hp
    exact put_same (hcarries.lastModified.symm.trans hn)
  · exact put_ended (fun hrun => hp ((hw.frame_call keeps_lastModified hn).running p hrun)) hq

/-- Only a processor that runs accepts. -/
theorem Processor.Inv.running_of_accepts {n n' : Processor} (h : n.Inv) {shardID : UInt64}
    {points : List Point} (hwrite : Processor.writeShard c shardID points n = .ok () n') :
    n.running = true := by
  cases hd : n.done with
  | true => exact (h.consistent.mp hd).2
  | false =>
    rw [Processor.writeShard, bind_ok (Processor.self_run n), if_pos hd] at hwrite
    cases hwrite

/-- **Every step keeps the flow**, if a processor that is made finds its node's hints delivered, up
    to `R`. -/
theorem ServiceOp.Does.flow (hR : ∀ l l' x, R l l' → R (l ++ x) (l' ++ x))
    (hd : ServiceOp.Does c maxAge s op s') (hclean : op.Clean c s) (hdir : op.InNewDirectory s)
    (hw : s.Wired) (ho : s.Owned)
    (hnew : ∀ k, s.processors.lookup k = none →
      R (hintsFor k s.delivered) (hintsFor k s.accepted))
    (h : s.Flow R c) : s'.Flow R c := by
  have hrelies := hw.relies
  cases hd with
  | opens hfree => exact hclean.elim
  | lookup _ _ | again _ _ _ | uncreated _ | passBegin _ | inactive _ _ | active _ | old _ _
  | young _ | passEnd _ | closeBegin _ | closeEnd _ => exact h.same (fun _ _ => rfl) rfl rfl
  | created hfree hcall hnone hspawn =>
    obtain ⟨q, rfl, rfl⟩ := spawn_ok hspawn
    obtain ⟨chain, hgood, hempty⟩ := hdir _ hcall hnone
    intro p hp
    show ((s.spawned _ q.1).heap p).Flows R c s.accepted s.delivered
    by_cases hpn : p = s.next
    · subst hpn
      rw [spawned_new]
      refine ⟨_, _, [], Node.Carries.start hgood, (List.append_nil _).symm, ?_⟩
      rw [hempty, List.filterMap_nil, List.append_nil]
      exact hnew _ hnone
    · rw [spawned_old hpn]
      exact h p ((spawned_running hpn).mp hp)
  | accepted hcall hwrite =>
    rename_i i shardID ownerID points p n
    have hrun : s.Running p := (hw.procs p).running_of_accepts hwrite
    have howner : (s.heap p).nodeID = ownerID := (hw.calls i _ p hcall rfl).2
    have hframe := hw.frame_writeShard (congrArg final hwrite)
    intro q hq
    show ((s.put p n).heap q).Flows R c
      (s.accepted ++ [(shardID, points)].map fun x => ⟨ownerID, x.1, x.2⟩) s.delivered
    by_cases hqp : q = p
    · subst hqp
      obtain ⟨gone, acc, del, hcarries, hdel, hacc⟩ := h q hrun
      rw [put_self]
      refine ⟨gone, _, del, hcarries.accepted ((hw.procs q).running hrun)
        (hclean.roomy hcall) hwrite, hdel, ?_⟩
      rw [← howner, hintsFor_append_self, ← List.append_assoc]
      exact hR _ _ _ hacc
    · -- another processor is one of another node
      have hne : ownerID ≠ (s.heap q).nodeID :=
        fun he => hqp (ho.unique (hframe.running q hq) hrun (he.symm.trans howner.symm))
      rw [put_ne hqp]
      obtain ⟨gone, acc, del, hcarries, hdel, hacc⟩ := h q (hframe.running q hq)
      refine ⟨gone, acc, del, hcarries, hdel, ?_⟩
      rw [hintsFor_append_ne hne]
      exact hacc
  | refused hcall hwrite =>
    rename_i i shardID ownerID points p n e
    have hframe := hw.frame_writeShard (congrArg final hwrite)
    intro q hq
    show ((s.put p n).heap q).Flows R c s.accepted s.delivered
    have hrun := hframe.running q hq
    by_cases hqp : q = p
    · subst hqp
      obtain ⟨gone, acc, del, hcarries, hdel, hacc⟩ := h q hrun
      rw [put_self]
      exact ⟨gone, acc, del, hcarries.refused ((hw.procs q).running hrun)
        (hclean.roomy hcall) hwrite, hdel, hacc⟩
    · rw [put_ne hqp]
      exact h q hrun
  | move hrun =>
    rename_i p m
    intro q hq
    by_cases hqp : q = p
    · subst hqp
      obtain ⟨gone, acc, del, hcarries, hdel, hacc⟩ := h q hrun
      show (Function.update s.heap q _ q).Flows R c s.accepted _
      rw [Function.update_self]
      refine ⟨gone, acc, _, hcarries.next hclean, ?_, ?_⟩
      · rw [(Node.next_same (s.heap q) m).1, hintsFor_append_self, hdel, List.append_assoc]
      · rw [(Node.next_same (s.heap q) m).1]
        exact hacc
    · have hold : Function.update s.heap p ((s.heap p).next c m) q = s.heap q :=
        Function.update_of_ne hqp _ _
      have hqrun : s.Running q := by
        rw [Running, ← hold]
        exact hq
      have hne : (s.heap p).nodeID ≠ (s.heap q).nodeID :=
        fun he => hqp (ho.unique hqrun hrun he.symm)
      obtain ⟨gone, acc, del, hcarries, hdel, hacc⟩ := h q hqrun
      show (Function.update s.heap p _ q).Flows R c s.accepted _
      rw [hold]
      refine ⟨gone, acc, del, hcarries, ?_, hacc⟩
      rw [hintsFor_append_ne hne]
      exact hdel
  | looked hpass hthere hread =>
    exact h.same (fun q hq => h.put_lastModified hw (congrArg final hread) hq) rfl rfl
  | unread hpass hthere hread =>
    exact h.same (fun q hq => h.put_lastModified hw (congrArg final hread) hq) rfl rfl
  | closed _ _ hclose | unclosed _ _ hclose | closedNode _ _ _ hclose | unclosedNode _ _ _ hclose =>
    have hend := (hw.frame_close (congrArg final hclose)).2
    exact h.same (fun q hq => put_ended hend hq) rfl rfl
  | removed hpass hpurge | unremoved hpass hpurge =>
    -- what is purged has been closed
    rw [hpass] at hrelies
    have hend := fun hrun => hrelies.2
      ((hw.frame_purge (congrArg final hpurge)).running _ hrun)
    exact h.same (fun q hq => put_ended hend hq) rfl rfl

/-! ## Runs -/

/-- **What a step does to the histories.** -/
theorem ServiceOp.Does.histories (hd : ServiceOp.Does c maxAge s op s') (hclean : op.Clean c s)
    (hw : s.Wired) :
    (s'.accepted = s.accepted ∧ s'.delivered = s.delivered) ∨
    (∃ p, ∃ x : UInt64 × List Point, s.Running p ∧ s'.delivered = s.delivered ∧
      s'.accepted = s.accepted ++ [x].map fun x => ⟨(s.heap p).nodeID, x.1, x.2⟩) ∨
    ∃ p, ∃ l : List (UInt64 × List Point), s'.Running p ∧ s'.accepted = s.accepted ∧
      s'.delivered = s.delivered ++ l.map fun x => ⟨(s'.heap p).nodeID, x.1, x.2⟩ := by
  cases hd with
  | opens hfree => exact hclean.elim
  | created hfree hcall hnone hspawn =>
    obtain ⟨q, -, rfl⟩ := spawn_ok hspawn
    exact .inl ⟨rfl, rfl⟩
  | accepted hcall hwrite =>
    rename_i i shardID ownerID points p n
    refine .inr (.inl ⟨p, (shardID, points), (hw.procs p).running_of_accepts hwrite, rfl, ?_⟩)
    rw [(hw.calls i _ p hcall rfl).2]
    rfl
  | move hrun =>
    rename_i p m
    obtain ⟨hid, hstill⟩ := Node.next_same (c := c) (s.heap p) m
    refine .inr (.inr ⟨p, (s.heap p).sent c m, ?_, rfl, ?_⟩)
    · show (Function.update s.heap p _ p).proc.running = true
      rw [Function.update_self]
      exact hstill.trans hrun
    · show _ = s.delivered ++ ((s.heap p).sent c m).map fun x =>
        ⟨(Function.update s.heap p ((s.heap p).next c m) p).nodeID, x.1, x.2⟩
      rw [Function.update_self, hid]
  | lookup _ _ | again _ _ _ | uncreated _ | refused _ _ | passBegin _ | looked _ _ _
  | unread _ _ _ | inactive _ _ | active _ | old _ _ | young _ | closed _ _ _ | unclosed _ _ _
  | removed _ _ | unremoved _ _ | passEnd _ | closeBegin _ | closedNode _ _ _ _
  | unclosedNode _ _ _ _ | closeEnd _ => exact .inl ⟨rfl, rfl⟩

/-- What the nodes have received, in order, and what is still under way. -/
structure Service.InOrder (c : PointCodec Point) (s : Service Point) : Prop where
  wired : s.Wired
  owned : s.Owned
  swept : s.Swept
  flow : s.Flow (· <+ ·) c
  order : ∀ k, hintsFor k s.delivered <+ hintsFor k s.accepted

/-- A processor that runs has delivered a part of what was accepted for its node. -/
theorem Node.Flows.order (hc : c.Inverts) {n : Node} {accepted delivered : List (Hint Point)}
    (h : n.Flows (· <+ ·) c accepted delivered) :
    hintsFor n.nodeID delivered <+ hintsFor n.nodeID accepted := by
  obtain ⟨gone, acc, del, hcarries, hdel, hacc⟩ := h
  rw [hdel]
  exact ((List.Sublist.refl gone).append (hcarries.in_order hc).sublist).trans hacc

/-- **Every step keeps the order.** -/
theorem Service.InOrder.step (hc : c.Inverts) (h : s.InOrder c)
    (hd : ServiceOp.Does c maxAge s op s') (hclean : op.Clean c s) {maxSize : Int}
    (hfinds : op.Finds maxSize s) : s'.InOrder c := by
  have hflow := hd.flow (fun _ _ x hsub => hsub.append (List.Sublist.refl x)) hclean
    (hfinds.inNewDirectory h.swept) h.wired h.owned (fun k _ => h.order k) h.flow
  refine ⟨hd.wired h.wired, (hd.owned_iff h.wired h.owned).mpr hclean.fresh,
    hd.swept h.wired h.owned h.swept, hflow, fun k => ?_⟩
  obtain ⟨ha, hdel⟩ | ⟨p, x, -, hdel, ha⟩ | ⟨p, l, hp, ha, hdel⟩ := hd.histories hclean h.wired
  · rw [ha, hdel]
    exact h.order k
  · rw [ha, hdel, hintsFor_append]
    exact (h.order k).trans (List.sublist_append_left _ _)
  · by_cases hk : (s'.heap p).nodeID = k
    · subst hk
      exact (hflow p hp).order hc
    · rw [ha, hdel, hintsFor_append_ne hk]
      exact h.order k

/-- An open service at rest: nothing has been delivered, and what the processors found in their
    directories counts as accepted.  There are no directories but theirs. -/
structure Service.Settled (c : PointCodec Point) (s : Service Point) : Prop where
  wired : s.Wired
  owned : s.Owned
  swept : s.Swept
  undelivered : s.delivered = []
  found : ∀ p, s.Running p → ∃ q chain, Good q chain ∧
    s.heap p = ⟨(s.heap p).nodeID, ⟨true, some q, true⟩, .idle⟩ ∧
    (Chain.content (logs chain)).filterMap (decoded c) = hintsFor (s.heap p).nodeID s.accepted
  unknown : ∀ k, s.processors.lookup k = none → hintsFor k s.accepted = []

theorem Service.settled_new : (new : Service Point).Settled c :=
  ⟨wired_new, fun _ hp => Bool.noConfusion hp, swept_new, rfl, fun _ hp => Bool.noConfusion hp,
    fun _ _ => rfl⟩

/-- Nothing is on its way in a service that has settled. -/
theorem Service.Settled.flow (h : s.Settled c) (hR : ∀ l, R l l) : s.Flow R c := by
  intro p hp
  obtain ⟨q, chain, hgood, hheap, hfound⟩ := h.found p hp
  refine ⟨[], hintsFor (s.heap p).nodeID s.accepted, [], ?_, ?_, hR _⟩
  · rw [← hfound, hheap]
    exact Node.Carries.start hgood
  · rw [h.undelivered]
    rfl

theorem Service.Settled.inOrder (h : s.Settled c) : s.InOrder c := by
  refine ⟨h.wired, h.owned, h.swept, h.flow List.Sublist.refl, fun k => ?_⟩
  rw [h.undelivered]
  exact List.nil_sublist _

/-- **Hints arrive in order, at most once, and at their node.**  On an open service on whose disk
    nothing fails and whose processors do not age their queues: whatever the order in which calls of
    `WriteShard`, the goroutines of the processors, passes of `purgeInactiveProcessors` and `Close`
    take their steps, what a node has received is a subsequence of what `WriteShard` accepted for
    it: also across a removal of its processor and the making of a new one. -/
theorem service_in_order (hc : c.Inverts) {s₀ : Service Point} (hs : s₀.Settled c)
    {ops : List (ServiceOp Point)} {maxSize : Int}
    (hclean : Along (ServiceOp.step c maxAge) (fun s op => op.Clean c s) s₀ ops)
    (hfinds : Along (ServiceOp.step c maxAge) (fun s op => op.Finds maxSize s) s₀ ops)
    (hrun : ops.foldlM (ServiceOp.step c maxAge) s₀ = some s) (k : UInt64) :
    hintsFor k s.delivered <+ hintsFor k s.accepted := by
  have hinv : s.InOrder c := (hclean.and hfinds).inv
    (fun _ _ _ h hop hstep => h.step hc (ServiceOp.does_of_step c maxAge hstep) hop.1 hop.2)
    hs.inOrder hrun
  exact hinv.order k

/-- **In a run of an open service an empty directory is there** wherever a processor is made. -/
theorem Service.Settled.finds {s₀ : Service Point} (hs : s₀.Settled c) {maxSize : Int}
    {ops : List (ServiceOp Point)}
    (hclean : Along (ServiceOp.step c maxAge) (fun s op => op.Clean c s) s₀ ops)
    (hempty : ∀ op ∈ ops, op.MakesEmpty maxSize) :
    Along (ServiceOp.step c maxAge) (fun s op => op.Finds maxSize s) s₀ ops := by
  refine (hclean.and_mem hempty).imp (J := fun s => s.Wired ∧ s.Owned ∧ s.Swept) ?_ ?_
    ⟨hs.wired, hs.owned, hs.swept⟩
  · rintro s op s' ⟨hw, ho, hswept⟩ ⟨hop, -⟩ hstep
    have hd := ServiceOp.does_of_step c maxAge hstep
    exact ⟨hd.wired hw, (hd.owned_iff hw ho).mpr hop.fresh, hd.swept hw ho hswept⟩
  · rintro s op ⟨-, -, hswept⟩ ⟨-, hop⟩
    exact hswept.finds hop

/-- Two writers of the node 1 find no processor; one of them makes it, the other finds it on its
    second look.  The processor sends while a pass is under way. -/
def twoWriters (env : Env Unit) : List (ServiceOp Unit) :=
  [.lookup 0 7 1 [()], .lookup 1 8 1 [(), ()], .create 0 (.ofQueue 1000 Disk.empty),
    .create 1 (.ofQueue 1000 Disk.empty), .write 0, .write 1, .move 0 (.begin env), .passBegin,
    .move 0 .fetch, .lastModified 1, .move 0 (.deliver env), .active env, .passEnd,
    .move 0 .advance]

/-- A node that is there and takes everything. -/
def nodeUp : Env Unit := { dataNode := fun _ => .ok true, writeShard := fun _ _ _ => .ok () }

/-- A node that nobody knows any more. -/
def nodeGone : Env Unit := { nodeUp with dataNode := fun _ => .ok false }

/-- The node 1 leaves, and a pass removes its processor with the hint that it still holds.  Then the
    node is back: a third writer finds no processor, and the one that it makes sends its hint. -/
def twoGenerations : List (ServiceOp Unit) :=
  twoWriters nodeUp ++
    [.passBegin, .lastModified 1, .active nodeGone, .check 1000, .close, .purge none, .passEnd,
      .lookup 2 9 1 [()], .create 2 (.ofQueue 1000 Disk.empty), .write 2, .move 1 (.begin nodeUp),
      .move 1 .fetch, .move 1 (.deliver nodeUp)]

theorem makesEmpty_twoWriters (env : Env Unit) :
    ∀ op ∈ twoWriters env, op.MakesEmpty 1000 := by
  intro op hop i a hcreate
  subst hcreate
  simp only [twoWriters, List.mem_cons, List.not_mem_nil, reduceCtorEq, false_or, or_false,
    ServiceOp.create.injEq] at hop
  obtain ⟨-, ha⟩ | ⟨-, ha⟩ := hop
  · exact ha
  · exact ha

theorem makesEmpty_twoGenerations : ∀ op ∈ twoGenerations, op.MakesEmpty 1000 := by
  intro op hop
  obtain hop | hop := List.mem_append.mp hop
  · exact makesEmpty_twoWriters nodeUp op hop
  · intro i a hcreate
    subst hcreate
    simp only [List.mem_cons, List.not_mem_nil, reduceCtorEq, false_or, or_false,
      ServiceOp.create.injEq] at hop
    exact hop.2

theorem service_in_order_twoGenerations : ∃ s : Service Unit,
    (new : Service Unit).Settled tally ∧
    twoGenerations.foldlM (ServiceOp.step tally 100) .new = some s ∧
    hintsFor 1 s.accepted = [(7, [()]), (8, [(), ()]), (9, [()])] ∧
    hintsFor 1 s.delivered = [(7, [()]), (9, [()])] ∧
    hintsFor 1 s.delivered <+ hintsFor 1 s.accepted := by
  have hrun : (twoGenerations.foldlM (ServiceOp.step tally 100) .new).map
      (fun s => (hintsFor 1 s.accepted, hintsFor 1 s.delivered))
        = some ([(7, [()]), (8, [(), ()]), (9, [()])], [(7, [()]), (9, [()])]) := by
    decide +kernel
  obtain ⟨s, hs, hhints⟩ := Option.map_eq_some_iff.mp hrun
  have hclean : Along (ServiceOp.step tally 100) (fun s op => op.Clean tally s) .new
      twoGenerations := by decide +kernel
  exact ⟨s, settled_new, hs, congrArg Prod.fst hhints, congrArg Prod.snd hhints,
    service_in_order tally_inverts settled_new hclean
      (settled_new.finds hclean makesEmpty_twoGenerations) hs 1⟩

end Flow

end InfluxCluster.HH
