/-
  Changes of the nodes in the registries (`meta/data.go`): `UpdateDataNode`, `AddPendingShardOwner`
  and `RemovePendingShardOwner`, and the pending owners in a snapshot, `NodeInfo.marshal` and
  `unmarshal`.

  COPIES.  The three changes are loops `for _, n := range nodes` over slices of VALUES.  In each
  round `n` is a copy of the node, and what is assigned to its fields is gone with it.  The loops are
  written here as they are in the source, with a variable that gets one node after the other
  (`node := n`), and a loop that assigns to its own variable only leaves the state as it is
  (`forIn_keeps`).  So each call returns as if it had worked, and NOTHING has changed
  (`run_updateDataNode`, `run_addPendingShardOwner`, `run_removePendingShardOwner`).

  DOUBLING.  `marshal` makes a slice of `len(PendingShardOwners)` zeros and APPENDS the owners to
  it.  Each cycle of writing and reading doubles the list: after `k` of them there are `2^k - 1`
  zeros in front for each owner (`pending_cycles`).
-/
import InfluxCluster.Meta.Snapshot
import Mathlib.Logic.Function.Iterate

namespace InfluxCluster.Meta

/-! ## The three loops -/

/-- The zero `NodeInfo`. -/
def NodeInfo.zero : NodeInfo := { id := 0, host := "", tcpHost := "", pendingShardOwners := [] }

namespace Data

variable {X : Type}

/-- `UpdateDataNode`. -/
def updateDataNode (nodeID : UInt64) (host tcpHost : String) :
    StateM (Data X) (Option MetaErr) := do
  let mut n := NodeInfo.zero
  for node in (← get).dataNodes do
    n := node
    if n.id = nodeID then
      n := { n with host := host, tcpHost := tcpHost }
      break
  return none

/-- `AddPendingShardOwner`. -/
def addPendingShardOwner (id : UInt64) : StateM (Data X) Unit := do
  let mut node := NodeInfo.zero
  for n in (← get).metaNodes do
    node := n
    node := { node with pendingShardOwners := node.pendingShardOwners ++ [id] }

/-- `RemovePendingShardOwner`. -/
def removePendingShardOwner (id : UInt64) : StateM (Data X) Unit := do
  let mut node := NodeInfo.zero
  for n in (← get).metaNodes do
    node := n
    let mut newPso := []
    for pso in node.pendingShardOwners do
      if id ≠ pso then
        newPso := newPso ++ [pso]
    node := { node with pendingShardOwners := newPso }

/-- **A loop whose body leaves the state as it is does so itself.** -/
theorem forIn_keeps {σ α β : Type} {s : σ} {f : α → β → StateM σ (ForInStep β)}
    (h : ∀ a b, ∃ r, f a b s = (r, s)) (l : List α) (b : β) :
    ∃ r, (forIn l b f : StateM σ β) s = (r, s) := by
  induction l generalizing b with
  | nil => exact ⟨b, rfl⟩
  | cons a l ih =>
    obtain ⟨r, hr⟩ := h a b
    rw [List.forIn_cons]
    show ∃ r, StateT.bind (f a b) _ s = (r, s)
    cases r with
    | done b' =>
      refine ⟨b', ?_⟩
      simp only [StateT.bind, hr]
      rfl
    | yield b' =>
      obtain ⟨r, hl⟩ := ih b'
      refine ⟨r, ?_⟩
      simp only [StateT.bind, hr]
      exact hl

/-- A program that looks at the state, runs a loop over a part of it that keeps it, and returns. -/
theorem loop_over_keeps {σ α β γ : Type} {s : σ} (part : σ → List α) (b : β)
    {f : α → β → StateM σ (ForInStep β)} (h : ∀ a b, ∃ r, f a b s = (r, s)) (c : γ) :
    (do
      let state ← get
      let _ ← forIn (part state) b f
      return c : StateM σ γ) s = (c, s) := by
  obtain ⟨r, hr⟩ := forIn_keeps h (part s) b
  show StateT.bind (forIn (part s) b f) (fun _ => pure c) s = (c, s)
  simp only [StateT.bind, hr]
  rfl

variable (d : Data X)

theorem run_updateDataNode (nodeID : UInt64) (host tcpHost : String) :
    updateDataNode nodeID host tcpHost d = (none, d) := by
  refine loop_over_keeps Data.dataNodes NodeInfo.zero ?_ none
  intro n _
  by_cases hid : n.id = nodeID
  · simp only [if_pos hid]
    exact ⟨_, rfl⟩
  · simp only [if_neg hid]
    exact ⟨_, rfl⟩

theorem run_addPendingShardOwner (id : UInt64) : addPendingShardOwner id d = ((), d) := by
  refine loop_over_keeps Data.metaNodes NodeInfo.zero ?_ ()
  intro n _
  exact ⟨_, rfl⟩

theorem run_removePendingShardOwner (id : UInt64) : removePendingShardOwner id d = ((), d) := by
  refine loop_over_keeps Data.metaNodes NodeInfo.zero ?_ ()
  intro n _
  -- the loop over the pending owners of one node
  have hinner : ∀ (pso : UInt64) (newPso : List UInt64),
      ∃ r, (if id ≠ pso then pure (.yield (newPso ++ [pso])) else pure (.yield newPso) :
        StateM (Data X) (ForInStep (List UInt64))) d = (r, d) := by
    intro pso newPso
    by_cases hne : id ≠ pso
    · rw [if_pos hne]
      exact ⟨_, rfl⟩
    · rw [if_neg hne]
      exact ⟨_, rfl⟩
  obtain ⟨r, hr⟩ := forIn_keeps hinner n.pendingShardOwners []
  refine ⟨.yield { n with pendingShardOwners := r }, ?_⟩
  show StateT.bind (forIn n.pendingShardOwners [] _) _ d = _
  simp only [StateT.bind, hr]
  rfl

/-! ## What the changes should do -/

/-- The node that has the identifier gets the addresses, and the other nodes stay. -/
def UpdatesNode (nodeID : UInt64) (host tcpHost : String) : Prop :=
  (d.dataNode nodeID).isSome →
    ∃ node, ((updateDataNode nodeID host tcpHost d).2.dataNode nodeID) = some node ∧
      node.host = host ∧ node.tcpHost = tcpHost ∧
      ((updateDataNode nodeID host tcpHost d).2.dataNodes.filter fun n => n.id ≠ nodeID)
        = (d.dataNodes.filter fun n => n.id ≠ nodeID) ∧
      (updateDataNode nodeID host tcpHost d).2.metaNodes = d.metaNodes

/-- The shard is pending on every meta node, after those that were. -/
def AddsPending (id : UInt64) : Prop :=
  (addPendingShardOwner id d).2 = { d with metaNodes := d.metaNodes.map fun n =>
    { n with pendingShardOwners := n.pendingShardOwners ++ [id] } }

/-- The shard is pending on no meta node any more, and the others are as they were. -/
def RemovesPending (id : UInt64) : Prop :=
  (removePendingShardOwner id d).2 = { d with metaNodes := d.metaNodes.map fun n =>
    { n with pendingShardOwners := n.pendingShardOwners.filter fun pso => pso ≠ id } }

theorem updatesNode_iff (nodeID : UInt64) (host tcpHost : String) :
    d.UpdatesNode nodeID host tcpHost ↔
      ∀ node, d.dataNode nodeID = some node → node.host = host ∧ node.tcpHost = tcpHost := by
  unfold UpdatesNode
  rw [run_updateDataNode]
  constructor
  · intro h node hnode
    obtain ⟨node', hnode', hhost, htcp, -⟩ := h (Option.isSome_of_eq_some hnode)
    rw [hnode] at hnode'
    cases hnode'
    exact ⟨hhost, htcp⟩
  · intro h hsome
    obtain ⟨node, hnode⟩ := Option.isSome_iff_exists.mp hsome
    obtain ⟨hhost, htcp⟩ := h node hnode
    exact ⟨node, hnode, hhost, htcp, rfl, rfl⟩

/-- A registry whose nodes are all replaced stays the same if each is replaced by itself. -/
theorem eq_with_metaNodes_iff (f : NodeInfo → NodeInfo) :
    d = { d with metaNodes := d.metaNodes.map f } ↔ ∀ n ∈ d.metaNodes, f n = n := by
  rw [← eq_map_iff]
  constructor
  · intro h
    exact congrArg Data.metaNodes h
  · intro h
    rw [← h]

theorem addsPending_iff (id : UInt64) : d.AddsPending id ↔ d.metaNodes = [] := by
  unfold AddsPending
  rw [run_addPendingShardOwner, eq_with_metaNodes_iff]
  constructor
  · intro h
    rw [List.eq_nil_iff_forall_not_mem]
    intro n hn
    have hlen := congrArg (fun n => n.pendingShardOwners.length) (h n hn)
    rw [List.length_append] at hlen
    simp at hlen
  · intro h n hn
    rw [h] at hn
    cases hn

theorem removesPending_iff (id : UInt64) :
    d.RemovesPending id ↔ ∀ n ∈ d.metaNodes, id ∉ n.pendingShardOwners := by
  unfold RemovesPending
  rw [run_removePendingShardOwner, eq_with_metaNodes_iff]
  refine forall₂_congr fun n _ => ?_
  constructor
  · intro h hmem
    have hpending := congrArg NodeInfo.pendingShardOwners h
    rw [← hpending] at hmem
    exact of_decide_eq_true (List.mem_filter.mp hmem).2 rfl
  · intro h
    have hpending : (n.pendingShardOwners.filter fun pso => pso ≠ id) = n.pendingShardOwners :=
      List.filter_eq_self.mpr fun pso hpso => decide_eq_true fun he => h (he ▸ hpso)
    rw [hpending]

/-- **Node updates take effect where there is nothing to do**: `UpdateDataNode` for the addresses that
    the node has already, `AddPendingShardOwner` without meta nodes, `RemovePendingShardOwner` of a
    shard that is not pending.  A removal after an addition is the identity, as both are. -/
theorem node_updates_iff (nodeID id : UInt64) (host tcpHost : String) :
    (d.UpdatesNode nodeID host tcpHost ↔
        ∀ node, d.dataNode nodeID = some node → node.host = host ∧ node.tcpHost = tcpHost) ∧
      (d.AddsPending id ↔ d.metaNodes = []) ∧
      (d.RemovesPending id ↔ ∀ n ∈ d.metaNodes, id ∉ n.pendingShardOwners) ∧
      (removePendingShardOwner id (addPendingShardOwner id d).2).2 = d := by
  refine ⟨d.updatesNode_iff nodeID host tcpHost, d.addsPending_iff id, d.removesPending_iff id, ?_⟩
  rw [run_addPendingShardOwner, run_removePendingShardOwner]

end Data

/-- A meta node on which shard 7 is pending, and a data node. -/
def oneOfEach : Data Unit :=
  { (newStoreData () : Data Unit) with
    metaNodes := [{ id := 1, host := "meta", tcpHost := "meta:8089", pendingShardOwners := [7] }]
    dataNodes := [{ id := 2, host := "old", tcpHost := "old:8088", pendingShardOwners := [] }]
    maxNodeID := 2 }

/-- The data node keeps its addresses; shard 8 does not become pending, and shard 7 stays. -/
theorem node_updates_lost :
    ((Data.updateDataNode 2 "new" "new:8088" oneOfEach).2.dataNode 2).map NodeInfo.host
        = some "old" ∧
      (Data.addPendingShardOwner 8 oneOfEach).2.metaNodes.map NodeInfo.pendingShardOwners = [[7]] ∧
      (Data.removePendingShardOwner 7 oneOfEach).2.metaNodes.map NodeInfo.pendingShardOwners
        = [[7]] ∧
      ¬ oneOfEach.UpdatesNode 2 "new" "new:8088" ∧ ¬ oneOfEach.AddsPending 8 ∧
      ¬ oneOfEach.RemovesPending 7 := by
  refine ⟨by decide, by decide, by decide, ?_, ?_, ?_⟩
  · intro h
    obtain ⟨node, hnode, hhost, -⟩ := h rfl
    rw [Data.run_updateDataNode] at hnode
    cases hnode
    revert hhost
    decide
  · unfold Data.AddsPending
    decide
  · unfold Data.RemovesPending
    decide

/-! ## Writing and reading a node -/

/-- A node that is written and read. -/
def NodeInfo.cycle (ni : NodeInfo) : NodeInfo := NodeInfo.unmarshal (some ni.marshal)

theorem cycle_eq (ni : NodeInfo) :
    ni.cycle =
      { ni with
        pendingShardOwners :=
          List.replicate ni.pendingShardOwners.length 0 ++ ni.pendingShardOwners } := rfl

/-- **After `k` cycles** everything but the pending owners is the same, and these have `2^k - 1`
    zeros for each of them in front. -/
theorem pending_cycles (ni : NodeInfo) (k : Nat) :
    NodeInfo.cycle^[k] ni =
      { ni with
        pendingShardOwners :=
          List.replicate ((2 ^ k - 1) * ni.pendingShardOwners.length) 0
            ++ ni.pendingShardOwners } := by
  induction k with
  | zero => simp
  | succ k ih =>
    have hpow : 0 < 2 ^ k := Nat.two_pow_pos k
    have hlen : (2 ^ k - 1) * ni.pendingShardOwners.length + ni.pendingShardOwners.length
        + (2 ^ k - 1) * ni.pendingShardOwners.length
        = (2 ^ (k + 1) - 1) * ni.pendingShardOwners.length := by
      have hsum : 2 ^ (k + 1) - 1 = (2 ^ k - 1) + 1 + (2 ^ k - 1) := by
        rw [Nat.pow_succ]
        omega
      rw [hsum, Nat.add_mul, Nat.add_mul, Nat.one_mul]
    rw [Function.iterate_succ_apply', ih, cycle_eq]
    simp only [List.length_append, List.length_replicate]
    rw [← List.append_assoc, List.replicate_append_replicate, hlen]

/-- **Pending owners survive no cycle**: a node is read back as it was written only if none are
    pending, or nothing has been written yet. -/
theorem cycles_keep_iff (ni : NodeInfo) (k : Nat) :
    NodeInfo.cycle^[k] ni = ni ↔ k = 0 ∨ ni.pendingShardOwners = [] := by
  rw [pending_cycles]
  constructor
  · intro h
    have hlen := congrArg (fun n => n.pendingShardOwners.length) h
    simp only [List.length_append, List.length_replicate, Nat.add_eq_right, Nat.mul_eq_zero] at hlen
    rcases hlen with hpow | hnil
    · left
      cases k with
      | zero => rfl
      | succ k =>
        have hpos : 0 < 2 ^ k := Nat.two_pow_pos k
        rw [Nat.pow_succ] at hpow
        omega
    · exact Or.inr (List.eq_nil_of_length_eq_zero hnil)
  · rintro (rfl | hnil)
    · simp
    · have hzero : (2 ^ k - 1) * ni.pendingShardOwners.length = 0 := by
        rw [hnil, List.length_nil, Nat.mul_zero]
      rw [hzero, List.replicate_zero, List.nil_append]

/-- The node on which shard 7 is pending: one cycle gives 0 and 7, two give 0, 0, 0 and 7. -/
theorem pending_owner_doubles :
    let ni : NodeInfo :=
      { id := 1, host := "meta", tcpHost := "meta:8089", pendingShardOwners := [7] }
    (NodeInfo.cycle^[1] ni).pendingShardOwners = [0, 7] ∧
      (NodeInfo.cycle^[2] ni).pendingShardOwners = [0, 0, 0, 7] ∧ NodeInfo.cycle^[1] ni ≠ ni := by
  decide

end InfluxCluster.Meta
