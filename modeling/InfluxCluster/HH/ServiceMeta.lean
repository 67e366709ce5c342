/-
  Hinted handoff with the meta client of this repository.

  The service asks its `MetaClient` about a node at two places: a processor before it sends
  (`Active` in `SendWrite`), and a pass before it removes a processor.  A pass wants to hear that
  there is NO SUCH NODE, without an error; but `Client.DataNode` says so by an error, and an error
  counts as "nobody knows".

  *  So a pass never removes anything, and while nothing fails on disk and no processor ages its
     queue, no hint is lost: between two calls of `SendWrite`, what was accepted for a node and has
     not been delivered is in its queue (`service_keeps_hints`).
  *  And since a client never hears of a data node at all (`ViewOp.blank_run`), no hint is ever
     delivered either (`service_delivers_nothing`): the queues only grow.
-/
import InfluxCluster.HH.ServiceHandoff
import InfluxCluster.Meta.ClientView

namespace InfluxCluster.HH

open InfluxCluster.Lib

open Service

/-- `Active` of the processor of a node: there is a node, or an error. -/
def activeAt {X : Type} (client : Meta.Client X) (nodeID : UInt64) : Except NErr Bool :=
  match client.dataNode nodeID with
  | .ok _ => .ok true
  | .error _ => .error .dataNode

section ServiceMeta

variable {Point : Type} {c : PointCodec Point} {maxAge : Nat} {s s' : Service Point}
  {op : ServiceOp Point} {X : Type}

/-- Who asks for a node asks one of these clients. -/
def ServiceOp.Asks (known : Meta.Client X → Prop) : ServiceOp Point → Prop
  | .active env | .move _ (.begin env) =>
    ∃ client, known client ∧ ∀ nodeID, env.dataNode nodeID = activeAt client nodeID
  | _ => True

/-- The client never says that a node is inactive. -/
theorem activeAt_ne_false (client : Meta.Client X) (nodeID : UInt64) :
    activeAt client nodeID ≠ .ok false := by
  rw [activeAt]
  cases client.dataNode nodeID with
  | ok n =>
    intro h
    injection h with h
    exact Bool.noConfusion h
  | error e =>
    intro h
    injection h

/-! ## Nothing is removed -/

/-- A pass has not found a node that is not there. -/
def Holder.Harmless : Holder → Prop
  | .pass _ (.inactive _ _ _) | .pass _ (.old _ _) | .pass _ (.closed _ _) => False
  | .free | .pass _ .next | .pass _ (.looked _ _ _) | .closing _ => True

/-- So no pass comes to a removal. -/
theorem ServiceOp.Does.harmless {known : Meta.Client X → Prop}
    (hd : ServiceOp.Does c maxAge s op s') (hasks : op.Asks known) (h : s.holder.Harmless) :
    s'.holder.Harmless := by
  cases hd with
  | opens hfree =>
    exact openEntries_inv (J := fun t => t.holder.Harmless) (fun _ _ _ ht => ht) h _
  | created hfree hcall hnone hspawn =>
    obtain ⟨q, -, rfl⟩ := spawn_ok hspawn
    exact h
  | inactive hpass hnode =>
    obtain ⟨client, -, hclient⟩ := hasks
    rw [hclient] at hnode
    exact absurd hnode (activeAt_ne_false _ _)
  | old hpass _ | closed hpass _ _ =>
    rw [hpass] at h
    exact h.elim
  | lookup _ _ | again _ _ _ | uncreated _ | accepted _ _ | refused _ _ | move _ => exact h
  | passBegin _ | looked _ _ _ | unread _ _ _ | active _ | young _ | unclosed _ _ _ | removed _ _
  | unremoved _ _ | passEnd _ | closeBegin _ | closedNode _ _ _ _ | unclosedNode _ _ _ _
  | closeEnd _ => trivial

/-- **A node that has a processor keeps one.** -/
theorem ServiceOp.Does.keeps_node (hd : ServiceOp.Does c maxAge s op s')
    (h : s.holder.Harmless) {k : UInt64} (hk : (s.processors.lookup k).isSome) :
    (s'.processors.lookup k).isSome := by
  have hspawned : ∀ (t : Service Point) (k' : UInt64) (q : QState),
      (t.processors.lookup k).isSome → ((t.spawned k' q).processors.lookup k).isSome := by
    intro t k' q ht
    by_cases hkk : k = k'
    · subst hkk
      rw [spawned_lookup_self]
      rfl
    · rw [spawned_lookup_ne hkk]
      exact ht
  cases hd with
  | opens hfree =>
    exact openEntries_inv (J := fun t => (t.processors.lookup k).isSome)
      (fun t k' q ht => hspawned t k' q.1 ht) hk _
  | created hfree hcall hnone hspawn =>
    obtain ⟨q, -, rfl⟩ := spawn_ok hspawn
    exact hspawned s _ q.1 hk
  | removed hpass hpurge =>
    rw [hpass] at h
    exact h.elim
  | lookup _ _ | again _ _ _ | uncreated _ | accepted _ _ | refused _ _ | move _ | passBegin _
  | looked _ _ _ | unread _ _ _ | inactive _ _ | active _ | old _ _ | young _ | closed _ _ _
  | unclosed _ _ _ | unremoved _ _ | passEnd _ | closeBegin _ | closedNode _ _ _ _
  | unclosedNode _ _ _ _ | closeEnd _ => exact hk

/-! ## Nothing is lost -/

/-- All that was accepted for a node went through the processor that it has. -/
structure Service.Keeps (c : PointCodec Point) (s : Service Point) : Prop where
  inOrder : s.InOrder c
  harmless : s.holder.Harmless
  flow : s.Flow Eq c
  unknown : ∀ k, s.processors.lookup k = none → hintsFor k s.accepted = []

theorem Service.Keeps.step (hc : c.Inverts) (h : s.Keeps c)
    (hd : ServiceOp.Does c maxAge s op s') (hclean : op.Clean c s) {maxSize : Int}
    (hfinds : op.Finds maxSize s) {known : Meta.Client X → Prop} (hasks : op.Asks known) :
    s'.Keeps c := by
  have hw := h.inOrder.wired
  have hdir := hfinds.inNewDirectory h.inOrder.swept
  refine ⟨h.inOrder.step hc hd hclean hfinds, hd.harmless hasks h.harmless, ?_, fun k hk => ?_⟩
  · refine hd.flow (fun l l' x hl => by rw [hl]) hclean hdir hw h.inOrder.owned (fun k hk => ?_)
      h.flow
    -- for a node without a processor nothing was accepted, so nothing was delivered
    have horder := h.inOrder.order k
    rw [h.unknown k hk] at horder
    rw [h.unknown k hk, List.sublist_nil.mp horder]
  · have hbefore : s.processors.lookup k = none := by
      cases hlookup : s.processors.lookup k with
      | none => rfl
      | some p =>
        have hkept := hd.keeps_node h.harmless (k := k) (by rw [hlookup]; rfl)
        rw [hk] at hkept
        cases hkept
    obtain ⟨ha, -⟩ | ⟨p, x, hp, -, ha⟩ | ⟨p, l, -, ha, -⟩ := hd.histories hclean hw
    · rw [ha]
      exact h.unknown k hbefore
    · -- the one that accepted is in the map
      have hne : (s.heap p).nodeID ≠ k := by
        rintro rfl
        rw [h.inOrder.owned p hp] at hbefore
        cases hbefore
      rw [ha, hintsFor_append_ne hne]
      exact h.unknown k hbefore
    · rw [ha]
      exact h.unknown k hbefore

/-- **With this meta client, only a processor itself drops hints.**  On an open service on whose disk
    nothing fails and whose processors do not age their queues: whatever the order of the steps, a
    node that has a processor keeps one, and between two calls of `SendWrite` what was accepted for a
    node is what has been delivered to it followed by what its queue holds. -/
theorem service_keeps_hints (hc : c.Inverts) {s₀ : Service Point} (hs : s₀.Settled c)
    (hfree : s₀.holder = .free) {ops : List (ServiceOp Point)} {maxSize : Int}
    (hclean : Along (ServiceOp.step c maxAge) (fun s op => op.Clean c s) s₀ ops)
    (hfinds : Along (ServiceOp.step c maxAge) (fun s op => op.Finds maxSize s) s₀ ops)
    (hasks : ∀ op ∈ ops, op.Asks fun _ : Meta.Client X => True)
    (hrun : ops.foldlM (ServiceOp.step c maxAge) s₀ = some s) :
    (∀ k, (s₀.processors.lookup k).isSome → (s.processors.lookup k).isSome) ∧
    ∀ p, s.Running p → (s.heap p).pc = .idle →
      ∃ q rem, (s.heap p).proc.queue = some q ∧ content q = some rem ∧
        hintsFor (s.heap p).nodeID s.accepted
          = hintsFor (s.heap p).nodeID s.delivered ++ rem.filterMap (decoded c) := by
  have hstart : s₀.Keeps c := by
    refine ⟨hs.inOrder, ?_, hs.flow fun _ => rfl, hs.unknown⟩
    rw [hfree]
    trivial
  have hinv := ((hclean.and hfinds).and_mem hasks).inv
    (J := fun s => s.Keeps c ∧ ∀ k, (s₀.processors.lookup k).isSome →
      (s.processors.lookup k).isSome)
    (fun t op t' h hop hstep =>
      have hd := ServiceOp.does_of_step c maxAge hstep
      ⟨h.1.step hc hd hop.1.1 hop.1.2 hop.2, fun k hk => hd.keeps_node h.1.harmless (h.2 k hk)⟩)
    ⟨hstart, fun _ hk => hk⟩ hrun
  refine ⟨hinv.2, fun p hp hidle => ?_⟩
  obtain ⟨gone, acc, del, hcarries, hdel, hacc⟩ := hinv.1.flow p hp
  obtain ⟨q, rem, hq, hrem, hkept⟩ := hcarries.kept hc hidle
  refine ⟨q, rem, hq, hrem, ?_⟩
  rw [← hacc, hdel, hkept, List.append_assoc]

/-- A client that knows the node 1. -/
def knowing : Meta.Client Unit :=
  { (Meta.newClient : Meta.Client Unit) with
    cacheData := { Meta.Data.zero with
      dataNodes := [{ id := 1, host := "a:8086", tcpHost := "a:8088", pendingShardOwners := [] }] } }

/-- A writer that takes everything, for nodes that the client knows. -/
def asking (client : Meta.Client Unit) : Env Unit :=
  { dataNode := activeAt client, writeShard := fun _ _ _ => .ok () }

theorem twoWriters_asks {known : Meta.Client Unit → Prop} {client : Meta.Client Unit}
    (h : known client) : ∀ op ∈ twoWriters (asking client), op.Asks known := by
  have hasks : ∃ client', known client' ∧
      ∀ nodeID, (asking client).dataNode nodeID = activeAt client' nodeID :=
    ⟨client, h, fun _ => rfl⟩
  simp only [twoWriters, List.forall_mem_cons]
  exact ⟨trivial, trivial, trivial, trivial, trivial, trivial, hasks, trivial, trivial, trivial,
    trivial, hasks, trivial, trivial, fun _ h => by cases h⟩

theorem service_keeps_hints_twoWriters : ∃ s : Service Unit, (new : Service Unit).Settled tally ∧
    (twoWriters (asking knowing)).foldlM (ServiceOp.step tally 100) .new = some s ∧
    s.Running 0 ∧ (s.heap 0).pc = .idle ∧ (s.heap 0).nodeID = 1 ∧
    hintsFor 1 s.delivered = [(7, [()])] ∧
    ∃ q rem, (s.heap 0).proc.queue = some q ∧ content q = some rem ∧
      hintsFor 1 s.accepted = hintsFor 1 s.delivered ++ rem.filterMap (decoded tally) := by
  have hrun : ∃ s ∈ (twoWriters (asking knowing)).foldlM (ServiceOp.step tally 100) .new,
      s.Running 0 ∧ (s.heap 0).pc = .idle ∧ (s.heap 0).nodeID = 1 ∧
      hintsFor 1 s.delivered = [(7, [()])] := by decide +kernel
  obtain ⟨s, hs, hrunning, hidle, hnode, hdelivered⟩ := hrun
  have hclean : Along (ServiceOp.step tally 100) (fun s op => op.Clean tally s) .new
      (twoWriters (asking knowing)) := by decide +kernel
  have hknown : ∀ op ∈ twoWriters (asking knowing), op.Asks fun _ => True :=
    twoWriters_asks trivial
  have hkept := (service_keeps_hints tally_inverts settled_new rfl hclean
    (settled_new.finds hclean (makesEmpty_twoWriters _)) hknown hs).2 0 hrunning hidle
  rw [hnode] at hkept
  exact ⟨s, settled_new, hs, hrunning, hidle, hnode, hdelivered, hkept⟩

/-! ## Nothing is delivered -/

/-- No processor is inside of `SendWrite`. -/
structure Service.Still (s : Service Point) : Prop where
  idle : ∀ p, (s.heap p).pc = .idle
  undelivered : s.delivered = []

/-- A goroutine that is between two calls stays there if it does not hear of its node. -/
theorem Node.next_idle {n : Node} (hidle : n.pc = .idle) {m : NodeMove Point}
    (hm : ∀ env, m = .begin env → env.dataNode n.nodeID ≠ .ok true) :
    (n.next c m).pc = .idle ∧ n.sent c m = [] := by
  cases m with
  | begin env =>
    refine ⟨?_, rfl⟩
    rw [Node.next]
    split
    · next hnode => exact absurd hnode (hm env rfl)
    · exact hidle
  | fetch | advance =>
    rw [Node.next, hidle]
    exact ⟨hidle, rfl⟩
  | age fuel when_ =>
    rw [Node.next, hidle]
    exact ⟨rfl, rfl⟩
  | deliver env =>
    rw [Node.next, Node.sent, hidle]
    exact ⟨hidle, rfl⟩
  | tick t => exact ⟨hidle, rfl⟩

theorem Service.Still.put (h : s.Still) (p : NodePtr) (n : Processor) : (s.put p n).Still := by
  refine ⟨fun q => ?_, h.undelivered⟩
  by_cases hq : q = p
  · subst hq
    rw [put_self]
    exact h.idle q
  · rw [put_ne hq]
    exact h.idle q

theorem Service.Still.spawned (h : s.Still) (k : UInt64) (q : QState) : (s.spawned k q).Still := by
  refine ⟨fun p => ?_, h.undelivered⟩
  by_cases hp : p = s.next
  · subst hp
    rw [spawned_new]
  · rw [spawned_old hp]
    exact h.idle p

/-- **Without a node that is there, nothing moves.** -/
theorem Service.Still.step (h : s.Still) (hd : ServiceOp.Does c maxAge s op s')
    (hasks : op.Asks fun client : Meta.Client X => client.Blank) : s'.Still := by
  cases hd with
  | opens hfree => exact openEntries_inv (fun t k q ht => ht.spawned k q.1) h _
  | created hfree hcall hnone hspawn =>
    obtain ⟨q, -, rfl⟩ := spawn_ok hspawn
    exact ⟨(h.spawned _ q.1).idle, h.undelivered⟩
  | move hrun =>
    rename_i p m
    have hm : ∀ env, m = .begin env → env.dataNode (s.heap p).nodeID ≠ .ok true := by
      rintro env rfl hnode
      obtain ⟨client, hblank, hclient⟩ := hasks
      rw [hclient, activeAt, show client.dataNode _ = .error _ from hblank.findDataNode _] at hnode
      cases hnode
    obtain ⟨hpc, hsent⟩ := Node.next_idle (c := c) (h.idle p) hm
    refine ⟨fun q => ?_, ?_⟩
    · show (Function.update s.heap p _ q).pc = .idle
      by_cases hq : q = p
      · subst hq
        rw [Function.update_self]
        exact hpc
      · rw [Function.update_of_ne hq]
        exact h.idle q
    · show s.delivered ++ ((s.heap p).sent c m).map _ = []
      rw [hsent, h.undelivered]
      rfl
  | accepted _ _ | refused _ _ | looked _ _ _ | unread _ _ _ | closed _ _ _ | unclosed _ _ _
  | removed _ _ | unremoved _ _ | closedNode _ _ _ _ | unclosedNode _ _ _ _ =>
    exact ⟨(h.put _ _).idle, h.undelivered⟩
  | lookup _ _ | again _ _ _ | uncreated _ | passBegin _ | inactive _ _ | active _ | old _ _
  | young _ | passEnd _ | closeBegin _ | closeEnd _ => exact ⟨h.idle, h.undelivered⟩

/-- **With this meta client, no hint is ever delivered.**  Whatever the meta servers have sent to
    the clients that are asked, whatever fails on disk, and in any order of the steps: `SendWrite`
    never gets as far as its writer. -/
theorem service_delivers_nothing {K : Meta.Crypto} {P : Meta.Protobuf} {emb : Meta.EmbeddedCodec X}
    {ops : List (ServiceOp Point)}
    (hasks : ∀ op ∈ ops, op.Asks fun client => ∃ vs, client = Meta.ViewOp.run K P emb vs)
    (hrun : ops.foldlM (ServiceOp.step c maxAge) .new = some s) :
    s.delivered = [] ∧ ∀ p, (s.heap p).pc = .idle := by
  have hblank : ∀ op ∈ ops, op.Asks fun client : Meta.Client X => client.Blank := by
    intro op hop
    have hop := hasks op hop
    have hlift : ∀ env : Env Point,
        (∃ client, (∃ vs, client = Meta.ViewOp.run K P emb vs) ∧
          ∀ nodeID, env.dataNode nodeID = activeAt client nodeID) →
        ∃ client : Meta.Client X, client.Blank ∧
          ∀ nodeID, env.dataNode nodeID = activeAt client nodeID := by
      rintro env ⟨_, ⟨vs, rfl⟩, hclient⟩
      exact ⟨_, Meta.ViewOp.blank_run vs, hclient⟩
    cases op with
    | active env => exact hlift env hop
    | move p m =>
      cases m with
      | begin env => exact hlift env hop
      | _ => trivial
    | _ => trivial
  have hinv : s.Still := foldlM_inv_mem
    (fun _ _ _ h hop hstep => h.step (ServiceOp.does_of_step c maxAge hstep) hop) hblank
    ⟨fun _ => rfl, rfl⟩ hrun
  exact ⟨hinv.undelivered, hinv.idle⟩

theorem service_delivers_nothing_twoWriters : ∃ s : Service Unit,
    (twoWriters (asking Meta.newClient)).foldlM (ServiceOp.step tally 100) .new = some s ∧
    s.accepted = [⟨1, 7, [()]⟩, ⟨1, 8, [(), ()]⟩] ∧ s.delivered = [] := by
  have hrun : ((twoWriters (asking Meta.newClient)).foldlM (ServiceOp.step tally 100) .new).map
      Service.accepted = some [⟨1, 7, [()]⟩, ⟨1, 8, [(), ()]⟩] := by decide +kernel
  obtain ⟨s, hs, haccepted⟩ := Option.map_eq_some_iff.mp hrun
  have hblank : ∀ op ∈ twoWriters (asking Meta.newClient), op.Asks fun client => ∃ vs,
      client = Meta.ViewOp.run Meta.plainCrypto Meta.Protobuf.idle
        Meta.Embedded.idle.toEmbeddedCodec vs :=
    twoWriters_asks ⟨[], rfl⟩
  exact ⟨s, hs, haccepted, (service_delivers_nothing hblank hs).1⟩

end ServiceMeta

end InfluxCluster.HH
