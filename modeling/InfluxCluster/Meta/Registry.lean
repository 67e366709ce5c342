/-
  The registry of nodes (`meta/data.go`): which identifiers the two lists hold, after any sequence
  of joins and removals.

  Meta nodes and data nodes share one counter, and a host that is both has ONE identifier: a node
  that is created at an address where a meta node is registered gets that node's identifier, and any
  other gets a new one.  So identifiers and TCP addresses determine each other, over both lists
  taken together (`RegistryOK.keyed`); that data nodes are strictly increasing follows from it.

  The invariant needs the counter not to wrap.  It counts the creations, and `2^64` of them are too
  many.

  Of the META nodes less is true.  `CreateMetaNode` looks for its address among the data nodes, so a
  meta server that joins again is registered twice; `SetMetaNode` takes an identifier from its
  caller and appends.  Which operations keep the list in order is `MetaOp.Keeps`, and nothing else
  does (`MetaRegistryOK.step_iff`).
-/
import Mathlib.Data.List.Pairwise
import InfluxCluster.Meta.Data
import InfluxCluster.Lib.Lockstep

namespace InfluxCluster.Meta

open InfluxCluster.Lib

/-! ## Operations -/

/-- The operations on the registry. -/
inductive NodeOp
  | createMetaNode (host tcpHost : String)
  | deleteMetaNode (id : UInt64) (now : Time)
  | createDataNode (host tcpHost : String)
  | deleteDataNode (id : UInt64)
  deriving DecidableEq

namespace NodeOp

variable {X : Type}

/-- The call. -/
def call (d : Data X) : NodeOp → Except MetaErr (Data X)
  | .createMetaNode host tcpHost => d.createMetaNode host tcpHost
  | .deleteMetaNode id now => d.deleteMetaNode id now
  | .createDataNode host tcpHost => d.createDataNode host tcpHost
  | .deleteDataNode id => d.deleteDataNode id

/-- The data after the call: a call that returns an error changes nothing. -/
def step (d : Data X) (op : NodeOp) : Data X := d.ignoringErr (op.call d)

/-- The address at which the operation creates a node. -/
def creates : NodeOp → Option String
  | .createMetaNode _ tcpHost => some tcpHost
  | .createDataNode _ tcpHost => some tcpHost
  | .deleteMetaNode _ _ => none
  | .deleteDataNode _ => none

/-- The operation creates a node. -/
def Creates (d : Data X) (op : NodeOp) : Prop := op.creates.isSome ∧ (op.call d).toBool

instance (d : Data X) (op : NodeOp) : Decidable (op.Creates d) := inferInstanceAs (Decidable (_ ∧ _))

/-- The data after a sequence of operations. -/
def run (ops : List NodeOp) (d : Data X) : Data X := ops.foldl step d

/-- Number of nodes that a sequence of operations creates. -/
def creations : List NodeOp → Data X → Nat
  | [], _ => 0
  | op :: ops, d => (if op.Creates d then 1 else 0) + creations ops (op.step d)

end NodeOp

/-! ## The invariant -/

section Registry

variable {X : Type}

/-- Meta nodes and data nodes taken together. -/
def Data.nodes (d : Data X) : List NodeInfo := d.metaNodes ++ d.dataNodes

/-- No node is registered, and no identifier was given out. -/
structure Data.Empty (d : Data X) : Prop where
  metaNodes : d.metaNodes = []
  dataNodes : d.dataNodes = []
  maxNodeID : d.maxNodeID = 0

/-- **Identifiers and TCP addresses determine each other**, identifiers are in range, and the data
    nodes are strictly increasing. -/
structure RegistryOK (d : Data X) : Prop where
  increasing : d.dataNodes.Pairwise fun a b => a.id < b.id
  dataHosts : d.dataNodes.Pairwise fun a b => a.tcpHost ≠ b.tcpHost
  range : ∀ n ∈ d.nodes, 1 ≤ n.id ∧ n.id ≤ d.maxNodeID
  keyed : ∀ n ∈ d.nodes, ∀ n' ∈ d.nodes, n.id = n'.id ↔ n.tcpHost = n'.tcpHost

/-- Without nodes there is nothing to confuse. -/
theorem Data.Empty.registryOK {d : Data X} (h : d.Empty) : RegistryOK d := by
  have hn : d.nodes = [] := by rw [Data.nodes, h.metaNodes, h.dataNodes]; rfl
  constructor
  · rw [h.dataNodes]; exact .nil
  · rw [h.dataNodes]; exact .nil
  · rw [hn]; exact fun n hm => absurd hm List.not_mem_nil
  · rw [hn]; exact fun n hm => absurd hm List.not_mem_nil

/-- Nodes may go. -/
theorem RegistryOK.sublist {d d' : Data X} (h : RegistryOK d)
    (hm : d'.metaNodes.Sublist d.metaNodes) (hd : d'.dataNodes.Sublist d.dataNodes)
    (hmax : d'.maxNodeID = d.maxNodeID) : RegistryOK d' := by
  have hsub : ∀ n ∈ d'.nodes, n ∈ d.nodes := fun n hn => (hm.append hd).subset hn
  constructor
  · exact h.increasing.sublist hd
  · exact h.dataHosts.sublist hd
  · rw [hmax]
    exact fun n hn => h.range n (hsub n hn)
  · exact fun n hn n' hn' => h.keyed n (hsub n hn) n' (hsub n' hn')

theorem succ_toNat {m : UInt64} (h : m.toNat + 1 < 2 ^ 64) : (m + 1).toNat = m.toNat + 1 := by
  rw [UInt64.toNat_add]
  exact Nat.mod_eq_of_lt h

/-- A registered meta node passes its identifier on. -/
theorem Data.nodeID_known {d : Data X} {tcpHost : String} {n : NodeInfo}
    (h : d.metaNodes.find? (fun n => n.tcpHost = tcpHost) = some n) (h0 : n.id ≠ 0) :
    d.nodeID tcpHost = (n.id, d.maxNodeID) := by
  rw [Data.nodeID, h]
  exact if_neg h0

/-- Where there is none, the counter goes up. -/
theorem Data.nodeID_new {d : Data X} {tcpHost : String}
    (h : ∀ n, d.metaNodes.find? (fun n => n.tcpHost = tcpHost) = some n → n.id = 0) :
    d.nodeID tcpHost = (d.maxNodeID + 1, d.maxNodeID + 1) := by
  rcases hf : d.metaNodes.find? (fun n => n.tcpHost = tcpHost) with _ | n
  · rw [Data.nodeID, hf]
    rfl
  · rw [Data.nodeID, hf]
    exact if_pos (h n hf)

/-- A host that no meta node has gets the next identifier. -/
theorem Data.nodeID_fresh {d : Data X} {tcpHost : String}
    (h : ∀ n ∈ d.metaNodes, n.tcpHost ≠ tcpHost) :
    d.nodeID tcpHost = (d.maxNodeID + 1, d.maxNodeID + 1) := by
  apply Data.nodeID_new
  intro n hn
  obtain ⟨hmem, hhost⟩ := find?_key hn
  exact absurd hhost (h n hmem)

/-- What the identifier for an address is, where no data node is registered: the address has it, no
    other address has it, and it is in range of the counter afterwards. -/
theorem RegistryOK.nodeID {d : Data X} (h : RegistryOK d) {tcpHost : String}
    (hfree : ∀ n ∈ d.dataNodes, n.tcpHost ≠ tcpHost) (hmax : d.maxNodeID.toNat + 1 < 2 ^ 64) :
    (∀ n ∈ d.nodes, n.id = (d.nodeID tcpHost).1 ↔ n.tcpHost = tcpHost) ∧
      1 ≤ (d.nodeID tcpHost).1 ∧ (d.nodeID tcpHost).1 ≤ (d.nodeID tcpHost).2 ∧
      d.maxNodeID ≤ (d.nodeID tcpHost).2 ∧
      (d.nodeID tcpHost).2.toNat ≤ d.maxNodeID.toNat + 1 := by
  have hsucc := succ_toNat hmax
  rcases hf : d.metaNodes.find? (fun n => n.tcpHost = tcpHost) with _ | m
  · -- the address is new to both lists, and so is the identifier
    have hnone : ∀ n ∈ d.nodes, n.tcpHost ≠ tcpHost := by
      intro n hn
      rcases List.mem_append.mp hn with hm | hd
      · have hp := List.find?_eq_none.mp hf n hm
        rwa [decide_eq_true_eq] at hp
      · exact hfree n hd
    rw [Data.nodeID_new fun n hn => by rw [hf] at hn; cases hn]
    refine ⟨fun n hn => iff_of_false (fun hid => ?_) (hnone n hn), ?_, UInt64.le_refl _, ?_, hsucc.le⟩
    · have hle := UInt64.le_iff_toNat_le.mp (h.range n hn).2
      rw [hid, hsucc] at hle
      omega
    · rw [UInt64.le_iff_toNat_le, hsucc]
      exact Nat.le_add_left 1 _
    · rw [UInt64.le_iff_toNat_le, hsucc]
      exact Nat.le_succ _
  · obtain ⟨hmeta, hhost⟩ := find?_key hf
    have hm : m ∈ d.nodes := List.mem_append_left _ hmeta
    have hrange := h.range m hm
    have h0 : m.id ≠ 0 := by
      intro h0
      rw [h0] at hrange
      exact absurd hrange.1 (by decide)
    rw [Data.nodeID_known hf h0]
    refine ⟨fun n hn => ?_, hrange.1, hrange.2, UInt64.le_refl _, Nat.le_succ _⟩
    rw [h.keyed n hn m hm, hhost]

/-! ## Creating a node -/

theorem mem_sortNodeInfos {nodes : List NodeInfo} {n : NodeInfo} :
    n ∈ sortNodeInfos nodes ↔ n ∈ nodes :=
  List.mem_insertionSort _

/-- A node with the identifier of its address may be added to either list. -/
theorem RegistryOK.add {d d' : Data X} (h : RegistryOK d) {n : NodeInfo}
    (hmem : ∀ x, x ∈ d'.nodes ↔ x = n ∨ x ∈ d.nodes)
    (hid : ∀ x ∈ d.nodes, x.id = n.id ↔ x.tcpHost = n.tcpHost) (h1 : 1 ≤ n.id)
    (hle : n.id ≤ d'.maxNodeID) (hmax : d.maxNodeID ≤ d'.maxNodeID) :
    (∀ x ∈ d'.nodes, 1 ≤ x.id ∧ x.id ≤ d'.maxNodeID) ∧
      ∀ x ∈ d'.nodes, ∀ y ∈ d'.nodes, x.id = y.id ↔ x.tcpHost = y.tcpHost := by
  constructor
  · intro x hx
    rcases (hmem x).mp hx with rfl | hx
    · exact ⟨h1, hle⟩
    · exact ⟨(h.range x hx).1, UInt64.le_trans (h.range x hx).2 hmax⟩
  · intro x hx y hy
    rcases (hmem x).mp hx with rfl | hx
    · rcases (hmem y).mp hy with rfl | hy
      · exact iff_of_true rfl rfl
      · rw [eq_comm, hid y hy]
        exact eq_comm
    · rcases (hmem y).mp hy with rfl | hy
      · exact hid x hx
      · exact h.keyed x hx y hy

/-- The data nodes stay sorted, by what the two lists have in common. -/
theorem increasing_of_keyed {nodes : List NodeInfo}
    (hhosts : nodes.Pairwise fun a b => a.tcpHost ≠ b.tcpHost)
    (hkeyed : ∀ a ∈ nodes, ∀ b ∈ nodes, a.id = b.id ↔ a.tcpHost = b.tcpHost)
    (hsorted : nodes.Pairwise fun a b => a.id ≤ b.id) :
    nodes.Pairwise fun a b => a.id < b.id := by
  refine (hhosts.and hsorted).imp_of_mem ?_
  rintro a b ha hb ⟨hne, hle⟩
  apply UInt64.lt_of_le_of_ne hle
  intro hid
  exact hne ((hkeyed a ha b hb).mp hid)

instance : IsTrans NodeInfo fun a b => a.id ≤ b.id := ⟨fun _ _ _ => UInt64.le_trans⟩

instance : Std.Total fun a b : NodeInfo => a.id ≤ b.id := ⟨fun a b => UInt64.le_total a.id b.id⟩

instance : Std.Symm fun a b : NodeInfo => a.tcpHost ≠ b.tcpHost := ⟨fun _ _ hne => hne.symm⟩

theorem sortNodeInfos_sorted (nodes : List NodeInfo) :
    (sortNodeInfos nodes).Pairwise fun a b => a.id ≤ b.id :=
  List.pairwise_insertionSort _ _

theorem sortNodeInfos_hosts {nodes : List NodeInfo}
    (h : nodes.Pairwise fun a b => a.tcpHost ≠ b.tcpHost) :
    (sortNodeInfos nodes).Pairwise fun a b => a.tcpHost ≠ b.tcpHost :=
  (List.perm_insertionSort _ nodes).symm.pairwise h fun hne => hne.symm

/-- The node that is created for an address. -/
def Data.newNode (d : Data X) (host tcpHost : String) : NodeInfo :=
  { id := (d.nodeID tcpHost).1
    host := host
    tcpHost := tcpHost
    pendingShardOwners := [] }

/-- The data with another meta node. -/
def Data.addMetaNode (d : Data X) (host tcpHost : String) : Data X :=
  { d with
    maxNodeID := (d.nodeID tcpHost).2
    metaNodes := sortNodeInfos (d.metaNodes ++ [d.newNode host tcpHost]) }

/-- The data with another data node. -/
def Data.addDataNode (d : Data X) (host tcpHost : String) : Data X :=
  { d with
    maxNodeID := (d.nodeID tcpHost).2
    dataNodes := sortNodeInfos (d.dataNodes ++ [d.newNode host tcpHost]) }

/-- No data node is registered at the address. -/
def Data.Free (d : Data X) (tcpHost : String) : Prop := ∀ n ∈ d.dataNodes, n.tcpHost ≠ tcpHost

theorem any_host_iff {nodes : List NodeInfo} {tcpHost : String} :
    (nodes.any fun n => n.tcpHost = tcpHost) = true ↔ ¬ ∀ n ∈ nodes, n.tcpHost ≠ tcpHost := by
  rw [List.any_eq_true]
  constructor
  · rintro ⟨n, hn, hp⟩ hall
    exact hall n hn (of_decide_eq_true hp)
  · intro h
    by_contra hne
    exact h fun n hn heq => hne ⟨n, hn, decide_eq_true heq⟩

/-- Both creations look for the address among the data nodes first. -/
theorem unlessTaken_ok_iff {d d' added : Data X} {e : MetaErr} {tcpHost : String} :
    (if d.dataNodes.any fun n => n.tcpHost = tcpHost then .error e else .ok added) = Except.ok d'
      ↔ d.Free tcpHost ∧ d' = added := by
  split
  · next hany =>
    refine iff_of_false (fun h => ?_) fun h => any_host_iff.mp hany h.1
    cases h
  · next hany =>
    have hfree : d.Free tcpHost := not_not.mp fun hf => hany (any_host_iff.mpr hf)
    rw [Except.ok.injEq, eq_comm]
    exact (and_iff_right hfree).symm

/-- `CreateMetaNode` succeeds exactly where no data node is. -/
theorem createMetaNode_ok_iff {d d' : Data X} {host tcpHost : String} :
    d.createMetaNode host tcpHost = .ok d' ↔ d.Free tcpHost ∧ d' = d.addMetaNode host tcpHost :=
  unlessTaken_ok_iff

/-- `CreateDataNode` succeeds exactly where no data node is. -/
theorem createDataNode_ok_iff {d d' : Data X} {host tcpHost : String} :
    d.createDataNode host tcpHost = .ok d' ↔ d.Free tcpHost ∧ d' = d.addDataNode host tcpHost :=
  unlessTaken_ok_iff

/-- A meta node on a free host, as long as identifiers are left. -/
theorem RegistryOK.addMetaNode {d : Data X} (h : RegistryOK d) {tcpHost : String}
    (hfree : d.Free tcpHost) (hmax : d.maxNodeID.toNat + 1 < 2 ^ 64) (host : String) :
    RegistryOK (d.addMetaNode host tcpHost) := by
  obtain ⟨hid, h1, hle, hmono, -⟩ := h.nodeID hfree hmax
  have hmem : ∀ x, x ∈ (d.addMetaNode host tcpHost).nodes
      ↔ x = d.newNode host tcpHost ∨ x ∈ d.nodes := by
    intro x
    simp only [Data.nodes, Data.addMetaNode, List.mem_append, mem_sortNodeInfos,
      List.mem_singleton]
    rw [or_assoc, or_left_comm]
  obtain ⟨hrange, hkeyed⟩ := h.add hmem hid h1 hle hmono
  exact ⟨h.increasing, h.dataHosts, hrange, hkeyed⟩

/-- A data node on a free host. -/
theorem RegistryOK.addDataNode {d : Data X} (h : RegistryOK d) {tcpHost : String}
    (hfree : d.Free tcpHost) (hmax : d.maxNodeID.toNat + 1 < 2 ^ 64) (host : String) :
    RegistryOK (d.addDataNode host tcpHost) := by
  obtain ⟨hid, h1, hle, hmono, -⟩ := h.nodeID hfree hmax
  have hmem : ∀ x, x ∈ (d.addDataNode host tcpHost).nodes
      ↔ x = d.newNode host tcpHost ∨ x ∈ d.nodes := by
    intro x
    simp only [Data.nodes, Data.addDataNode, List.mem_append, mem_sortNodeInfos,
      List.mem_singleton]
    rw [← or_assoc, or_comm]
  obtain ⟨hrange, hkeyed⟩ := h.add hmem hid h1 hle hmono
  have hhosts : (d.addDataNode host tcpHost).dataNodes.Pairwise
      fun a b => a.tcpHost ≠ b.tcpHost := by
    apply sortNodeInfos_hosts
    rw [List.pairwise_append]
    refine ⟨h.dataHosts, List.pairwise_singleton _ _, fun a ha b hb => ?_⟩
    cases List.mem_singleton.mp hb
    exact hfree a ha
  refine ⟨?_, hhosts, hrange, hkeyed⟩
  apply increasing_of_keyed hhosts
  · intro a ha b hb
    exact hkeyed a (List.mem_append_right _ ha) b (List.mem_append_right _ hb)
  · exact sortNodeInfos_sorted _

/-! ## Steps and runs -/

/-- A deletion removes nodes and does nothing else to the registry. -/
theorem step_delete (d : Data X) (op : NodeOp) (h : op.creates = none) :
    (op.step d).metaNodes.Sublist d.metaNodes ∧ (op.step d).dataNodes.Sublist d.dataNodes ∧
      (op.step d).maxNodeID = d.maxNodeID := by
  cases op with
  | createMetaNode host tcpHost => cases h
  | createDataNode host tcpHost => cases h
  | deleteMetaNode id now =>
    rw [NodeOp.step, NodeOp.call, Data.deleteMetaNode]
    split
    · exact ⟨.refl _, .refl _, rfl⟩
    · exact ⟨List.filter_sublist, .refl _, rfl⟩
  | deleteDataNode id =>
    rw [NodeOp.step, NodeOp.call, Data.deleteDataNode]
    split
    · exact ⟨.refl _, .refl _, rfl⟩
    · exact ⟨.refl _, List.filter_sublist, rfl⟩

instance (d : Data X) (tcpHost : String) : Decidable (d.Free tcpHost) :=
  inferInstanceAs (Decidable (∀ n ∈ d.dataNodes, n.tcpHost ≠ tcpHost))

/-- A creation adds the node, or does nothing. -/
theorem step_create {d added : Data X} {op : NodeOp} {tcpHost : String}
    (h : ∀ d', op.call d = .ok d' ↔ d.Free tcpHost ∧ d' = added) :
    op.step d = if d.Free tcpHost then added else d := by
  rw [NodeOp.step]
  by_cases hf : d.Free tcpHost
  · rw [(h added).mpr ⟨hf, rfl⟩, if_pos hf]
    rfl
  · rw [if_neg hf]
    rcases hc : op.call d with e | d'
    · rfl
    · exact absurd ((h d').mp hc).1 hf

/-- A meta node is entered exactly on a free host. -/
theorem step_createMetaNode (d : Data X) (host tcpHost : String) :
    NodeOp.step d (.createMetaNode host tcpHost)
      = if d.Free tcpHost then d.addMetaNode host tcpHost else d :=
  step_create fun _ => createMetaNode_ok_iff

/-- So is a data node. -/
theorem step_createDataNode (d : Data X) (host tcpHost : String) :
    NodeOp.step d (.createDataNode host tcpHost)
      = if d.Free tcpHost then d.addDataNode host tcpHost else d :=
  step_create fun _ => createDataNode_ok_iff

/-- An operation that creates nothing only takes nodes away. -/
theorem step_sublist {d : Data X} {op : NodeOp} (h : ¬ op.Creates d) :
    (op.step d).metaNodes.Sublist d.metaNodes ∧ (op.step d).dataNodes.Sublist d.dataNodes ∧
      (op.step d).maxNodeID = d.maxNodeID := by
  rcases hop : op.creates with _ | tcpHost
  · exact step_delete d op hop
  · rcases hc : op.call d with e | d'
    · have hstep : op.step d = d := by rw [NodeOp.step, hc]; rfl
      rw [hstep]
      exact ⟨.refl _, .refl _, rfl⟩
    · refine absurd ⟨?_, ?_⟩ h
      · rw [hop]; rfl
      · rw [hc]; rfl

/-- What a creation does, whichever list gets the node. -/
theorem call_creates {d d' : Data X} {op : NodeOp} {tcpHost : String}
    (hop : op.creates = some tcpHost) (h : op.call d = .ok d') :
    ∃ host, d.Free tcpHost ∧ (d' = d.addMetaNode host tcpHost ∨ d' = d.addDataNode host tcpHost) := by
  cases op with
  | deleteMetaNode id now => cases hop
  | deleteDataNode id => cases hop
  | createMetaNode host t =>
    cases hop
    obtain ⟨hfree, rfl⟩ := createMetaNode_ok_iff.mp h
    exact ⟨host, hfree, .inl rfl⟩
  | createDataNode host t =>
    cases hop
    obtain ⟨hfree, rfl⟩ := createDataNode_ok_iff.mp h
    exact ⟨host, hfree, .inr rfl⟩

/-- What a run has done to the counter: it did not go down, and it went up by the number of
    creations at most. -/
structure Counted (d d' : Data X) (creations : Nat) : Prop where
  mono : d.maxNodeID ≤ d'.maxNodeID
  bound : d'.maxNodeID.toNat ≤ d.maxNodeID.toNat + creations

/-- The creations of two runs add up. -/
theorem Counted.trans {d d' d'' : Data X} {m n : Nat} (h : Counted d d' m) (h' : Counted d' d'' n) :
    Counted d d'' (m + n) := by
  constructor
  · exact UInt64.le_trans h.mono h'.mono
  · have h1 := h.bound
    have h2 := h'.bound
    omega

theorem Counted.of_eq {d d' : Data X} (h : d'.maxNodeID = d.maxNodeID) : Counted d d' 0 := by
  constructor
  · rw [h]
    exact UInt64.le_refl _
  · rw [h]
    omega

/-- **One operation keeps the invariant**, unless the counter is at its end. -/
theorem RegistryOK.step {d : Data X} (h : RegistryOK d) (op : NodeOp)
    (hmax : d.maxNodeID.toNat + (if op.Creates d then 1 else 0) < 2 ^ 64) :
    RegistryOK (op.step d) ∧ Counted d (op.step d) (if op.Creates d then 1 else 0) := by
  by_cases hc : op.Creates d
  · rw [if_pos hc] at hmax ⊢
    obtain ⟨tcpHost, hop⟩ := Option.isSome_iff_exists.mp hc.1
    rcases hcall : op.call d with e | d'
    · have htrue := hc.2
      rw [hcall] at htrue
      cases htrue
    · have hstep : op.step d = d' := by rw [NodeOp.step, hcall]; rfl
      obtain ⟨host, hfree, hd'⟩ := call_creates hop hcall
      obtain ⟨-, -, -, hmono, hbound⟩ := h.nodeID hfree hmax
      rw [hstep]
      rcases hd' with rfl | rfl
      · exact ⟨h.addMetaNode hfree hmax host, hmono, hbound⟩
      · exact ⟨h.addDataNode hfree hmax host, hmono, hbound⟩
  · obtain ⟨hm, hd, hmx⟩ := step_sublist hc
    rw [if_neg hc]
    exact ⟨h.sublist hm hd hmx, Counted.of_eq hmx⟩

/-- **A run keeps the invariant**, as long as there are identifiers left. -/
theorem RegistryOK.run {d : Data X} (h : RegistryOK d) (ops : List NodeOp)
    (hmax : d.maxNodeID.toNat + NodeOp.creations ops d < 2 ^ 64) :
    RegistryOK (NodeOp.run ops d) ∧ Counted d (NodeOp.run ops d) (NodeOp.creations ops d) := by
  induction ops generalizing d with
  | nil => exact ⟨h, Counted.of_eq rfl⟩
  | cons op ops ih =>
    -- the counter goes up by what this operation creates, and the rest has to fit above that
    rw [NodeOp.creations] at hmax ⊢
    obtain ⟨hok, hc⟩ := h.step op (by omega)
    have hb := hc.bound
    obtain ⟨hok', hc'⟩ := ih hok (by omega)
    exact ⟨hok', hc.trans hc'⟩

theorem run_append (ops ops' : List NodeOp) (d : Data X) :
    NodeOp.run (ops ++ ops') d = NodeOp.run ops' (NodeOp.run ops d) :=
  List.foldl_append

theorem creations_append (ops ops' : List NodeOp) (d : Data X) :
    NodeOp.creations (ops ++ ops') d
      = NodeOp.creations ops d + NodeOp.creations ops' (NodeOp.run ops d) := by
  induction ops generalizing d with
  | nil => exact (Nat.zero_add _).symm
  | cons op ops ih =>
    rw [List.cons_append, NodeOp.creations, NodeOp.creations, ih, Nat.add_assoc]
    rfl

/-- Every identifier that was registered at some point of a run is in range of the counter. -/
theorem RegistryOK.seen {d : Data X} (h : RegistryOK d) (ops : List NodeOp)
    (hmax : d.maxNodeID.toNat + NodeOp.creations ops d < 2 ^ 64) (k : Nat) {n : NodeInfo}
    (hn : n ∈ (NodeOp.run (ops.take k) d).nodes) : n.id ≤ (NodeOp.run ops d).maxNodeID := by
  have hsplit : ops.take k ++ ops.drop k = ops := List.take_append_drop k ops
  rw [← hsplit, creations_append] at hmax
  obtain ⟨hok, hc⟩ := h.run (ops.take k) (by omega)
  have hb := hc.bound
  obtain ⟨-, hc'⟩ := hok.run (ops.drop k) (by omega)
  rw [← run_append, hsplit] at hc'
  exact UInt64.le_trans (hok.range n hn).2 hc'.mono

/-- The node that a creation adds, and its identifier where no meta node has the address. -/
theorem created_node {d d' : Data X} {op : NodeOp} {tcpHost : String}
    (hop : op.creates = some tcpHost) (h : op.call d = .ok d')
    (hmeta : ∀ n ∈ d.metaNodes, n.tcpHost ≠ tcpHost) :
    ∃ n ∈ d'.nodes, n.tcpHost = tcpHost ∧ n.id = d.maxNodeID + 1 := by
  obtain ⟨host, -, hd'⟩ := call_creates hop h
  have hid : (d.newNode host tcpHost).id = d.maxNodeID + 1 := by
    rw [Data.newNode, Data.nodeID_fresh hmeta]
  have hmem : ∀ nodes : List NodeInfo,
      d.newNode host tcpHost ∈ sortNodeInfos (nodes ++ [d.newNode host tcpHost]) := by
    intro nodes
    rw [mem_sortNodeInfos]
    exact List.mem_append_right _ (List.mem_singleton_self _)
  refine ⟨d.newNode host tcpHost, ?_, rfl, hid⟩
  rcases hd' with rfl | rfl
  · exact List.mem_append_left _ (hmem _)
  · exact List.mem_append_right _ (hmem _)

/-- **The registry after any sequence of joins and removals**: it keeps its invariant, and a node
    that is created at an address where no meta node is gets an identifier that no node ever had. -/
theorem registry_run {d : Data X} (hd : d.Empty) (ops : List NodeOp)
    (hcount : NodeOp.creations ops d < 2 ^ 64) :
    RegistryOK (NodeOp.run ops d) ∧
      ∀ before op after tcpHost d', ops = before ++ op :: after → op.creates = some tcpHost →
        (∀ n ∈ (NodeOp.run before d).metaNodes, n.tcpHost ≠ tcpHost) →
        op.call (NodeOp.run before d) = .ok d' →
        ∃ n ∈ d'.nodes, n.tcpHost = tcpHost ∧
          ∀ k, ∀ n' ∈ (NodeOp.run (before.take k) d).nodes, n'.id ≠ n.id := by
  have h0 : d.maxNodeID.toNat = 0 := by rw [hd.maxNodeID]; rfl
  refine ⟨(hd.registryOK.run ops (by omega)).1, ?_⟩
  rintro before op after tcpHost d' rfl hop hmeta hcall
  have hone : op.Creates (NodeOp.run before d) := by
    constructor
    · rw [hop]; rfl
    · rw [hcall]; rfl
  rw [creations_append, NodeOp.creations, if_pos hone] at hcount
  obtain ⟨-, hc⟩ := hd.registryOK.run before (by omega)
  have hb := hc.bound
  obtain ⟨n, hn, hhost, hid⟩ := created_node hop hcall hmeta
  refine ⟨n, hn, hhost, fun k n' hn' heq => ?_⟩
  -- the new identifier is past the counter, and every earlier one is not
  have hle := hd.registryOK.seen before (by omega) k hn'
  rw [heq, hid, UInt64.le_iff_toNat_le, succ_toNat (by omega)] at hle
  omega

/-- A meta node that is a data node too, another data node that comes and goes, and one more. -/
def joins : List NodeOp :=
  [.createMetaNode "a:8091" "a:8088", .createDataNode "a:8086" "a:8088",
    .createDataNode "b:8086" "b:8088", .deleteDataNode 2, .createDataNode "c:8086" "c:8088"]

theorem registry_run_joins :
    (newStoreData ()).Empty ∧ NodeOp.creations joins (newStoreData ()) < 2 ^ 64 ∧
      RegistryOK (NodeOp.run joins (newStoreData ())) ∧
      ∃ n ∈ (NodeOp.run joins (newStoreData ())).nodes, n.tcpHost = "c:8088" ∧
        ∀ k, ∀ n' ∈ (NodeOp.run ((joins.take 4).take k) (newStoreData ())).nodes, n'.id ≠ n.id := by
  have hempty : (newStoreData ()).Empty := ⟨rfl, rfl, rfl⟩
  have hcount : NodeOp.creations joins (newStoreData ()) < 2 ^ 64 := by decide +kernel
  obtain ⟨hok, hnew⟩ := registry_run hempty joins hcount
  refine ⟨hempty, hcount, hok, ?_⟩
  exact hnew (joins.take 4) (.createDataNode "c:8086" "c:8088") [] "c:8088"
    (NodeOp.run joins (newStoreData ())) rfl rfl (by decide +kernel) (by decide +kernel)

/-! ## The meta nodes -/

/-- The operations on the registry together with `SetMetaNode`, whose caller chooses the
    identifier. -/
inductive MetaOp
  | node (op : NodeOp)
  | setMetaNode (id : UInt64) (host tcpHost : String)
  deriving DecidableEq

/-- The data after the call. -/
def MetaOp.step (d : Data X) : MetaOp → Data X
  | .node op => op.step d
  | .setMetaNode id host tcpHost => d.ignoringErr (d.setMetaNode id host tcpHost)

/-- The data after a sequence of operations. -/
def MetaOp.run (ops : List MetaOp) (d : Data X) : Data X := ops.foldl MetaOp.step d

/-- The meta nodes have different identifiers and different TCP addresses, and are sorted by
    identifiers, which are in range of the counter. -/
structure MetaRegistryOK (d : Data X) : Prop where
  ids : d.metaNodes.Pairwise fun a b => a.id ≠ b.id
  tcpHosts : d.metaNodes.Pairwise fun a b => a.tcpHost ≠ b.tcpHost
  sorted : d.metaNodes.Pairwise fun a b => a.id ≤ b.id
  max : ∀ n ∈ d.metaNodes, n.id ≤ d.maxNodeID

theorem Data.Empty.metaRegistryOK {d : Data X} (h : d.Empty) : MetaRegistryOK d := by
  constructor <;> rw [h.metaNodes]
  · exact .nil
  · exact .nil
  · exact .nil
  · exact fun n hn => absurd hn List.not_mem_nil

/-- `CreateMetaNode` looks for the address among the DATA nodes.  It has to be absent among the meta
    nodes as well, and the counter must not wrap over them; `SetMetaNode` looks at the HTTP address
    only, and appends. -/
def MetaOp.Keeps (d : Data X) : MetaOp → Prop
  | .node (.createMetaNode _ tcpHost) =>
    ¬ d.Free tcpHost ∨ ∀ n ∈ d.metaNodes, n.tcpHost ≠ tcpHost ∧ n.id < d.maxNodeID + 1
  | .node (.createDataNode _ tcpHost) =>
    ¬ d.Free tcpHost ∨ (∃ n ∈ d.metaNodes, n.tcpHost = tcpHost ∧ n.id ≠ 0) ∨
      ∀ n ∈ d.metaNodes, n.id ≤ d.maxNodeID + 1
  | .node (.deleteMetaNode _ _) => True
  | .node (.deleteDataNode _) => True
  | .setMetaNode id host tcpHost =>
    (∃ n ∈ d.metaNodes, n.host = host) ∨
      ((∀ n ∈ d.metaNodes, n.id < id ∧ n.tcpHost ≠ tcpHost) ∧ id ≤ d.maxNodeID)

instance (d : Data X) : (op : MetaOp) → Decidable (op.Keeps d)
  | .node (.createMetaNode _ _) => inferInstanceAs (Decidable (_ ∨ _))
  | .node (.createDataNode _ _) => inferInstanceAs (Decidable (_ ∨ _ ∨ _))
  | .node (.deleteMetaNode _ _) => inferInstanceAs (Decidable True)
  | .node (.deleteDataNode _) => inferInstanceAs (Decidable True)
  | .setMetaNode _ _ _ => inferInstanceAs (Decidable (_ ∨ _ ∧ _))

/-- What a new meta node has to bring along, wherever it is put. -/
theorem MetaRegistryOK.add_iff {d d' : Data X} (h : MetaRegistryOK d) {n : NodeInfo}
    (hperm : d'.metaNodes.Perm (d.metaNodes ++ [n])) :
    MetaRegistryOK d'
      ↔ (∀ x ∈ d.metaNodes, x.id ≠ n.id ∧ x.tcpHost ≠ n.tcpHost ∧ x.id ≤ d'.maxNodeID) ∧
        n.id ≤ d'.maxNodeID ∧ d'.metaNodes.Pairwise fun a b => a.id ≤ b.id := by
  have hmem : ∀ x, x ∈ d'.metaNodes ↔ x ∈ d.metaNodes ∨ x = n := by
    intro x
    rw [hperm.mem_iff, List.mem_append, List.mem_singleton]
  have hids := hperm.pairwise_iff (R := fun a b : NodeInfo => a.id ≠ b.id) fun hne => hne.symm
  have hhosts := hperm.pairwise_iff (R := fun a b : NodeInfo => a.tcpHost ≠ b.tcpHost)
    fun hne => hne.symm
  rw [List.pairwise_append] at hids hhosts
  constructor
  · intro h'
    obtain ⟨-, -, hid⟩ := hids.mp h'.ids
    obtain ⟨-, -, hhost⟩ := hhosts.mp h'.tcpHosts
    refine ⟨fun x hx => ?_, h'.max n ((hmem n).mpr (.inr rfl)), h'.sorted⟩
    exact ⟨hid x hx n (List.mem_singleton_self n), hhost x hx n (List.mem_singleton_self n),
      h'.max x ((hmem x).mpr (.inl hx))⟩
  · rintro ⟨hnew, hmax, hsorted⟩
    refine ⟨hids.mpr ⟨h.ids, List.pairwise_singleton _ _, ?_⟩,
      hhosts.mpr ⟨h.tcpHosts, List.pairwise_singleton _ _, ?_⟩, hsorted, ?_⟩
    · intro x hx y hy
      rw [List.mem_singleton.mp hy]
      exact (hnew x hx).1
    · intro x hx y hy
      rw [List.mem_singleton.mp hy]
      exact (hnew x hx).2.1
    · intro x hx
      rcases (hmem x).mp hx with hx | rfl
      · exact (hnew x hx).2.2
      · exact hmax

/-- Nodes can be taken away. -/
theorem MetaRegistryOK.sublist {d d' : Data X} (h : MetaRegistryOK d)
    (hm : d'.metaNodes.Sublist d.metaNodes) (hmax : d'.maxNodeID = d.maxNodeID) :
    MetaRegistryOK d' := by
  constructor
  · exact h.ids.sublist hm
  · exact h.tcpHosts.sublist hm
  · exact h.sorted.sublist hm
  · rw [hmax]
    exact fun n hn => h.max n (hm.subset hn)

/-- With different addresses the first meta node at an address is the only one. -/
theorem MetaRegistryOK.find? {d : Data X} (h : MetaRegistryOK d) {n : NodeInfo}
    (hn : n ∈ d.metaNodes) : d.metaNodes.find? (fun x => x.tcpHost = n.tcpHost) = some n := by
  rcases hf : d.metaNodes.find? (fun x => x.tcpHost = n.tcpHost) with _ | m
  · have hp := List.find?_eq_none.mp hf n hn
    rw [decide_eq_true_eq] at hp
    exact absurd rfl hp
  · obtain ⟨hm, hhost⟩ := find?_key hf
    have heq : m = n := by
      by_contra hne
      exact h.tcpHosts.forall hm hn hne hhost
    rw [hf, heq]

theorem lt_iff_ne_and_le {a b : UInt64} : a < b ↔ a ≠ b ∧ a ≤ b := by
  rw [UInt64.lt_iff_toNat_lt, UInt64.le_iff_toNat_le, ne_eq, ← UInt64.toNat_inj]
  omega

/-- When `CreateMetaNode` keeps the meta nodes apart. -/
theorem keeps_createMetaNode_iff {d : Data X} (h : MetaRegistryOK d) (host tcpHost : String) :
    MetaRegistryOK (NodeOp.step d (.createMetaNode host tcpHost))
      ↔ MetaOp.Keeps d (.node (.createMetaNode host tcpHost)) := by
  rw [MetaOp.Keeps, step_createMetaNode]
  by_cases hf : d.Free tcpHost
  · rw [if_pos hf, or_iff_right (not_not.mpr hf), h.add_iff (List.perm_insertionSort _ _)]
    -- the sorting takes care of the order; the address and the identifier have to be new
    constructor
    · rintro ⟨hnew, -, -⟩ n hn
      have hnone : ∀ n ∈ d.metaNodes, n.tcpHost ≠ tcpHost := fun n hn => (hnew n hn).2.1
      have hfresh := Data.nodeID_fresh hnone
      obtain ⟨hid, hhost, hmax⟩ := hnew n hn
      rw [Data.newNode, hfresh] at hid
      rw [Data.addMetaNode, hfresh] at hmax
      exact ⟨hhost, lt_iff_ne_and_le.mpr ⟨hid, hmax⟩⟩
    · intro hall
      have hfresh := d.nodeID_fresh fun n hn => (hall n hn).1
      rw [Data.newNode, Data.addMetaNode, hfresh]
      refine ⟨fun n hn => ?_, UInt64.le_refl _, sortNodeInfos_sorted _⟩
      obtain ⟨hhost, hlt⟩ := hall n hn
      exact ⟨(lt_iff_ne_and_le.mp hlt).1, hhost, (lt_iff_ne_and_le.mp hlt).2⟩
  · rw [if_neg hf]
    exact iff_of_true h (.inl hf)

/-- When `CreateDataNode` does: it moves the counter. -/
theorem keeps_createDataNode_iff {d : Data X} (h : MetaRegistryOK d) (host tcpHost : String) :
    MetaRegistryOK (NodeOp.step d (.createDataNode host tcpHost))
      ↔ MetaOp.Keeps d (.node (.createDataNode host tcpHost)) := by
  rw [MetaOp.Keeps, step_createDataNode]
  by_cases hf : d.Free tcpHost
  · -- the meta nodes stay as they are, and only the counter may wrap
    have hmax : MetaRegistryOK (d.addDataNode host tcpHost)
        ↔ ∀ n ∈ d.metaNodes, n.id ≤ (d.nodeID tcpHost).2 :=
      ⟨fun h' => h'.max, fun hle => ⟨h.ids, h.tcpHosts, h.sorted, hle⟩⟩
    rw [if_pos hf, or_iff_right (not_not.mpr hf), hmax]
    by_cases hknown : ∃ n ∈ d.metaNodes, n.tcpHost = tcpHost ∧ n.id ≠ 0
    · obtain ⟨n, hn, rfl, h0⟩ := hknown
      rw [Data.nodeID_known (h.find? hn) h0]
      exact iff_of_true h.max (.inl ⟨n, hn, rfl, h0⟩)
    · rw [or_iff_right hknown, Data.nodeID_new]
      intro n hn
      obtain ⟨hmem, hhost⟩ := find?_key hn
      by_contra h0
      exact hknown ⟨n, hmem, hhost, h0⟩
  · rw [if_neg hf]
    exact iff_of_true h (.inl hf)

/-- When `SetMetaNode` does. -/
theorem keeps_setMetaNode_iff {d : Data X} (h : MetaRegistryOK d) (id : UInt64)
    (host tcpHost : String) :
    MetaRegistryOK (MetaOp.step d (.setMetaNode id host tcpHost))
      ↔ MetaOp.Keeps d (.setMetaNode id host tcpHost) := by
  have hany : (d.metaNodes.any fun n => n.host = host) = true ↔ ∃ n ∈ d.metaNodes, n.host = host := by
    simp only [List.any_eq_true, decide_eq_true_eq]
  rw [MetaOp.step, MetaOp.Keeps, Data.setMetaNode]
  by_cases hhost : ∃ n ∈ d.metaNodes, n.host = host
  · rw [if_pos (hany.mpr hhost)]
    exact iff_of_true h (.inl hhost)
  · rw [if_neg (mt hany.mp hhost), Data.ignoringErr, or_iff_right hhost,
      h.add_iff (List.Perm.refl _)]
    dsimp only
    -- the node goes to the end, so it is in order there exactly if its identifier is the largest
    rw [List.pairwise_append]
    constructor
    · rintro ⟨hnew, hmax, -, -, hle⟩
      refine ⟨fun n hn => ⟨lt_iff_ne_and_le.mpr ⟨(hnew n hn).1, ?_⟩, (hnew n hn).2.1⟩, hmax⟩
      exact hle n hn _ (List.mem_singleton_self _)
    · rintro ⟨hall, hmax⟩
      refine ⟨fun n hn => ⟨(lt_iff_ne_and_le.mp (hall n hn).1).1, (hall n hn).2, h.max n hn⟩, hmax,
        h.sorted, List.pairwise_singleton _ _, fun n hn m hm => ?_⟩
      rw [List.mem_singleton.mp hm]
      exact (lt_iff_ne_and_le.mp (hall n hn).1).2

/-- **Exactly the operations that meet the condition keep the meta nodes in order.** -/
theorem MetaRegistryOK.step_iff {d : Data X} (h : MetaRegistryOK d) (op : MetaOp) :
    MetaRegistryOK (op.step d) ↔ op.Keeps d := by
  cases op with
  | setMetaNode id host tcpHost => exact keeps_setMetaNode_iff h id host tcpHost
  | node op =>
    cases op with
    | createMetaNode host tcpHost => exact keeps_createMetaNode_iff h host tcpHost
    | createDataNode host tcpHost => exact keeps_createDataNode_iff h host tcpHost
    | deleteMetaNode id now =>
      obtain ⟨hm, -, hmax⟩ := step_delete d (NodeOp.deleteMetaNode id now) rfl
      exact iff_of_true (h.sublist hm hmax) trivial
    | deleteDataNode id =>
      obtain ⟨hm, -, hmax⟩ := step_delete d (NodeOp.deleteDataNode id) rfl
      exact iff_of_true (h.sublist hm hmax) trivial

/-- **The meta nodes stay in order all along a run exactly when each operation of it meets the
    condition.** -/
theorem meta_registry_iff {d : Data X} (hd : d.Empty) (ops : List MetaOp) :
    (∀ k, MetaRegistryOK (MetaOp.run (ops.take k) d))
      ↔ ∀ k (op : MetaOp), ops[k]? = some op → op.Keeps (MetaOp.run (ops.take k) d) :=
  foldl_take_inv_iff (fun _ op h => h.step_iff op) ops hd.metaRegistryOK

/-- A meta node, a data node, a meta node whose identifier is chosen, and the first one goes. -/
def upgrade : List MetaOp :=
  [.node (.createMetaNode "a:8091" "a:8088"), .node (.createDataNode "b:8086" "b:8088"),
    .setMetaNode 2 "c:8091" "c:8088", .node (.deleteMetaNode 1 0)]

theorem meta_registry_upgrade :
    (newStoreData ()).Empty ∧
      ∀ k, MetaRegistryOK (MetaOp.run (upgrade.take k) (newStoreData ())) := by
  have hempty : (newStoreData ()).Empty := ⟨rfl, rfl, rfl⟩
  refine ⟨hempty, (meta_registry_iff hempty upgrade).mpr fun k op hop => ?_⟩
  have hall : ∀ k : Fin upgrade.length,
      (upgrade.get k).Keeps (MetaOp.run (upgrade.take k) (newStoreData ())) := by
    decide +kernel
  obtain ⟨hk, rfl⟩ := List.getElem?_eq_some_iff.mp hop
  exact hall ⟨k, hk⟩

/-- **A meta server that joins again is registered twice**: its address is looked for among the data
    nodes, and its identifier among the meta nodes. -/
theorem meta_node_joins_twice :
    (newStoreData ()).Empty ∧
      ¬ MetaRegistryOK (MetaOp.run [.node (.createMetaNode "a:8091" "a:8088"),
          .node (.createMetaNode "a:8091" "a:8088")] (newStoreData ())) := by
  refine ⟨⟨rfl, rfl, rfl⟩, fun h => ?_⟩
  exact absurd h.tcpHosts (by decide +kernel)

end Registry

end InfluxCluster.Meta
