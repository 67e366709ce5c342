/-
  Which nodes own which shards, when a node is removed (`meta/data.go`).

  `DeleteMetaNode` has a loop over all shards that takes the node off their owners and marks the
  groups that are left without any; `DeleteDataNode` has none.  Owners are DATA nodes.  So

  * `DeleteDataNode` leaves the placement as it is, and is right exactly for a node that owns
    nothing (`deleteDataNode_settles_iff`);
  * `DeleteMetaNode` of a node that owns nothing still marks every group without owners, and leaves
    the placement alone exactly if there are none to mark (`deleteMetaNode_frame_iff`).
-/
import InfluxCluster.Meta.Data

namespace InfluxCluster.Meta

section Placement

variable {X : Type}

/-! ## Groups, shards and owners -/

/-- The shard groups of all policies of all databases. -/
def MetaData.groups (m : MetaData X) : List ShardGroupInfo :=
  m.databases.flatMap fun db => db.retentionPolicies.flatMap RetentionPolicyInfo.shardGroups

/-- The shard groups of the embedded data. -/
def Data.groups (d : Data X) : List ShardGroupInfo := (d.data.map MetaData.groups).getD []

/-- The shards of all groups. -/
def Data.shards (d : Data X) : List ShardInfo := d.groups.flatMap ShardGroupInfo.shards

/-- The node owns the shard. -/
def ShardInfo.OwnedBy (s : ShardInfo) (id : UInt64) : Prop := ∃ o ∈ s.owners, o.nodeID = id

/-- No shard of the group has an owner; it may have no shards. -/
def ShardGroupInfo.Ownerless (sg : ShardGroupInfo) : Prop := ∀ s ∈ sg.shards, s.owners = []

/-- Every owner is a data node. -/
def Data.Placed (d : Data X) : Prop :=
  ∀ s ∈ d.shards, ∀ o ∈ s.owners, ∃ n ∈ d.dataNodes, n.id = o.nodeID

instance (s : ShardInfo) (id : UInt64) : Decidable (s.OwnedBy id) :=
  inferInstanceAs (Decidable (∃ o ∈ s.owners, o.nodeID = id))

instance (sg : ShardGroupInfo) : Decidable sg.Ownerless :=
  inferInstanceAs (Decidable (∀ s ∈ sg.shards, s.owners = []))

instance (d : Data X) : Decidable d.Placed :=
  inferInstanceAs (Decidable (∀ s ∈ d.shards, ∀ o ∈ s.owners, ∃ n ∈ d.dataNodes, n.id = o.nodeID))

theorem mem_groups {m : MetaData X} {sg : ShardGroupInfo} :
    sg ∈ m.groups ↔ ∃ db ∈ m.databases, ∃ rp ∈ db.retentionPolicies, sg ∈ rp.shardGroups := by
  simp only [MetaData.groups, List.mem_flatMap]

theorem mem_shards {d : Data X} {s : ShardInfo} :
    s ∈ d.shards ↔ ∃ sg ∈ d.groups, s ∈ sg.shards := by
  rw [Data.shards, List.mem_flatMap]

theorem groups_congr {d d' : Data X} (h : d'.data = d.data) : d'.groups = d.groups := by
  rw [Data.groups, Data.groups, h]

/-! ## `DeleteDataNode` -/

/-- What the removal of a data node is to leave: no shard with the node as an owner, in groups that
    are not deleted only shards with owners, and all of them nodes that are still there; a group
    whose shards have all lost their last owner is deleted. -/
structure Settled (d d' : Data X) (id : UInt64) : Prop where
  gone : ∀ s ∈ d'.shards, ¬ s.OwnedBy id
  owned : ∀ sg ∈ d'.groups, sg.deletedAt = 0 → ∀ s ∈ sg.shards, s.owners ≠ []
  placed : ∀ sg ∈ d'.groups, sg.deletedAt = 0 → ∀ s ∈ sg.shards, ∀ o ∈ s.owners,
    ∃ n ∈ d'.dataNodes, n.id = o.nodeID
  marked : ∀ (k : Nat) (sg sg' : ShardGroupInfo), d.groups[k]? = some sg → d'.groups[k]? = some sg' →
    sg.shards ≠ [] → (∀ s ∈ sg.shards, s.owners ≠ []) → sg'.Ownerless → sg'.deletedAt ≠ 0

theorem deleteDataNode_ok {d : Data X} {id : UInt64} {node : NodeInfo}
    (h : d.dataNode id = some node) :
    d.deleteDataNode id = .ok { d with dataNodes := d.dataNodes.filter fun n => n.id ≠ id } := by
  have hlt := length_filter_id_lt h
  exact if_neg hlt.ne

/-- **`DeleteDataNode` leaves no dangling ownership exactly if the node owns nothing**, and no live
    group had a shard without owners to begin with. -/
theorem deleteDataNode_settles_iff {d : Data X} {id : UInt64} {node : NodeInfo}
    (hnode : d.dataNode id = some node) (hplaced : d.Placed) :
    (∃ d', d.deleteDataNode id = .ok d' ∧ Settled d d' id)
      ↔ (∀ s ∈ d.shards, ¬ s.OwnedBy id) ∧
        ∀ sg ∈ d.groups, sg.deletedAt = 0 → ∀ s ∈ sg.shards, s.owners ≠ [] := by
  have hok := deleteDataNode_ok hnode
  constructor
  · rintro ⟨d', hd', hs⟩
    have hsame := groups_congr (Data.data_deleteDataNode hd')
    have hshards : d'.shards = d.shards := by rw [Data.shards, Data.shards, hsame]
    refine ⟨?_, ?_⟩
    · rw [← hshards]
      exact hs.gone
    · rw [← hsame]
      exact hs.owned
  · rintro ⟨hgone, howned⟩
    refine ⟨_, hok, hgone, howned, fun sg hsg hlive s hs o ho => ?_, ?_⟩
    · -- an owner is a data node, and not the one that goes
      have hshard : s ∈ d.shards := mem_shards.mpr ⟨sg, hsg, hs⟩
      obtain ⟨n, hn, hid⟩ := hplaced s hshard o ho
      refine ⟨n, List.mem_filter.mpr ⟨hn, ?_⟩, hid⟩
      rw [decide_eq_true_eq, hid]
      exact fun heq => hgone s hshard ⟨o, ho, heq⟩
    · intro k sg sg' hk hk' hne _ hless hlive
      obtain ⟨s, hs⟩ := List.exists_mem_of_ne_nil _ hne
      have hsg : sg' = sg := Option.some.inj (hk'.symm.trans hk)
      subst hsg
      exact howned sg' (List.mem_of_getElem? hk) hlive s hs (hless s hs)

/-- One database with one policy and one group of one shard, and two data nodes.  The group is live,
    and the shard has the given owners. -/
def oneShard (owners : List ShardOwner) : Data Unit :=
  { metaNodes := [{ id := 3, host := "c:8091", tcpHost := "c:8089", pendingShardOwners := [] }]
    dataNodes := [{ id := 1, host := "a:8086", tcpHost := "a:8088", pendingShardOwners := [] },
      { id := 2, host := "b:8086", tcpHost := "b:8088", pendingShardOwners := [] }]
    users := []
    roles := []
    maxNodeID := 3
    data := some
      { term := 1
        index := 9
        clusterID := 7
        databases := [{ name := "db", retentionPolicies := [
          { name := "rp", replicaN := 1, duration := 0, shardGroupDuration := 0, shardGroups := [
            { id := 1, startTime := 0, endTime := 10, deletedAt := 0,
              shards := [{ id := 1, owners := owners }] }] }] }]
        maxShardGroupID := 1
        maxShardID := 1
        rest := () } }

theorem deleteDataNode_settles_other :
    (oneShard [⟨2⟩]).dataNode 1 = some ⟨1, "a:8086", "a:8088", []⟩ ∧ (oneShard [⟨2⟩]).Placed ∧
      ∃ d', (oneShard [⟨2⟩]).deleteDataNode 1 = .ok d' ∧ Settled (oneShard [⟨2⟩]) d' 1 := by
  have hnode : (oneShard [⟨2⟩]).dataNode 1 = some ⟨1, "a:8086", "a:8088", []⟩ := by decide +kernel
  have hplaced : (oneShard [⟨2⟩]).Placed := by decide +kernel
  refine ⟨hnode, hplaced, (deleteDataNode_settles_iff hnode hplaced).mpr ?_⟩
  decide +kernel

/-- **The only owner of a shard is removed, and stays its owner.** -/
theorem deleteDataNode_leaves_owner :
    (oneShard [⟨1⟩]).dataNode 1 = some ⟨1, "a:8086", "a:8088", []⟩ ∧ (oneShard [⟨1⟩]).Placed ∧
      ¬ ∃ d', (oneShard [⟨1⟩]).deleteDataNode 1 = .ok d' ∧ Settled (oneShard [⟨1⟩]) d' 1 := by
  refine ⟨by decide +kernel, by decide +kernel, ?_⟩
  rintro ⟨d', hd', hs⟩
  have hshards : d'.shards = (oneShard [⟨1⟩]).shards := by
    rw [Data.shards, Data.shards, groups_congr (Data.data_deleteDataNode hd')]
  have hgone := hs.gone
  rw [hshards] at hgone
  exact absurd hgone (by decide +kernel)

/-! ## `DeleteMetaNode` -/

/-- The loop over the owners finds nothing where the node is not one of them. -/
theorem ownerIndex_of_forall_ne {id : UInt64} {owners : List ShardOwner}
    (h : ∀ o ∈ owners, o.nodeID ≠ id) (i : Nat) (nodeIdx : Option Nat) :
    ownerIndex id i nodeIdx owners = nodeIdx := by
  induction owners generalizing i with
  | nil => rfl
  | cons o owners ih =>
    rw [ownerIndex, if_neg (h o List.mem_cons_self)]
    exact ih (fun o' ho' => h o' (List.mem_cons_of_mem _ ho')) (i + 1)

theorem ShardInfo.relinquish_eq_self {id : UInt64} {s : ShardInfo} (h : ¬ s.OwnedBy id) :
    s.relinquish id = s := by
  have hne : ∀ o ∈ s.owners, o.nodeID ≠ id := fun o ho heq => h ⟨o, ho, heq⟩
  rw [relinquish, ownerIndex_of_forall_ne hne]

/-- The loop over the shards of a group, for a node that owns none of them: what is left of it is
    the mark on a group without owners. -/
theorem ShardGroupInfo.removeOwner_eq_self_iff {id : UInt64} {now : Time} {sg : ShardGroupInfo}
    (h : ∀ s ∈ sg.shards, ¬ s.OwnedBy id) :
    sg.removeOwner id now = sg ↔ (sg.Ownerless → sg.deletedAt = now) := by
  have hmap : sg.shards.map (ShardInfo.relinquish id) = sg.shards :=
    (eq_map_iff.mpr fun s hs => ShardInfo.relinquish_eq_self (h s hs)).symm
  -- no shard changes, so those that count as orphaned are those that had no owner before
  have horphaned : sg.Orphaned id ↔ sg.Ownerless := by
    rw [Orphaned, hmap, List.length_filter_eq_length_iff, Ownerless]
    simp only [decide_eq_true_eq, List.length_eq_zero_iff]
    constructor
    · rintro (hnil | hall)
      · rw [hnil]
        exact fun s hs => absurd hs List.not_mem_nil
      · exact hall
    · exact .inr
  rw [removeOwner, hmap]
  by_cases ho : sg.Ownerless
  · rw [if_pos (horphaned.mpr ho)]
    constructor
    · intro heq _
      rw [← heq]
    · intro hnow
      rw [← hnow ho]
  · rw [if_neg (mt horphaned.mp ho)]
    exact iff_of_true rfl fun h => absurd h ho

theorem DatabaseInfo.removeOwner_eq_self_iff {id : UInt64} {now : Time} {db : DatabaseInfo} :
    db.removeOwner id now = db
      ↔ ∀ rp ∈ db.retentionPolicies, ∀ sg ∈ rp.shardGroups, sg.removeOwner id now = sg := by
  have hrp : ∀ rp : RetentionPolicyInfo,
      { rp with shardGroups := rp.shardGroups.map (ShardGroupInfo.removeOwner id now) } = rp
        ↔ ∀ sg ∈ rp.shardGroups, sg.removeOwner id now = sg := by
    intro rp
    rw [← eq_map_iff]
    constructor
    · intro heq
      exact (congrArg RetentionPolicyInfo.shardGroups heq).symm
    · intro heq
      rw [← heq]
  have hdb : db.removeOwner id now = db
      ↔ db.retentionPolicies.map (fun rp =>
          { rp with shardGroups := rp.shardGroups.map (ShardGroupInfo.removeOwner id now) })
        = db.retentionPolicies := by
    constructor
    · intro heq
      exact congrArg DatabaseInfo.retentionPolicies heq
    · intro heq
      rw [removeOwner, heq]
  rw [hdb, eq_comm, eq_map_iff]
  exact forall₂_congr fun rp _ => hrp rp

/-- **`DeleteMetaNode` of a node that owns nothing changes the meta nodes only, exactly if no group
    is without owners**, or those that are were marked at the very time of the call. -/
theorem deleteMetaNode_frame_iff {d : Data X} {m : MetaData X} {id : UInt64} {node : NodeInfo}
    (hd : d.data = some m) (hnode : d.metaNode id = some node)
    (hown : ∀ s ∈ d.shards, ¬ s.OwnedBy id) (now : Time) :
    (∃ d', d.deleteMetaNode id now = .ok d' ∧ d' = { d with metaNodes := d'.metaNodes })
      ↔ ∀ sg ∈ d.groups, sg.Ownerless → sg.deletedAt = now := by
  have hgroups : d.groups = m.groups := by
    rw [Data.groups, hd]
    rfl
  have hdata : (∃ d', d.deleteMetaNode id now = .ok d' ∧ d' = { d with metaNodes := d'.metaNodes })
      ↔ m.databases.map (DatabaseInfo.removeOwner id now) = m.databases := by
    rw [Data.deleteMetaNode_ok hnode]
    constructor
    · rintro ⟨d', hd', heq⟩
      cases hd'
      have hdata := congrArg Data.data heq
      rw [Data.withoutMetaNode, hd] at hdata
      exact congrArg MetaData.databases (Option.some.inj hdata)
    · intro heq
      refine ⟨_, rfl, ?_⟩
      rw [Data.withoutMetaNode, hd, Option.map_some, heq]
  have hself : ∀ sg ∈ d.groups, sg.removeOwner id now = sg
      ↔ (sg.Ownerless → sg.deletedAt = now) := by
    intro sg hsg
    apply ShardGroupInfo.removeOwner_eq_self_iff
    exact fun s hs => hown s (mem_shards.mpr ⟨sg, hsg, hs⟩)
  rw [hdata, eq_comm, eq_map_iff]
  constructor
  · intro h sg hsg
    apply (hself sg hsg).mp
    rw [hgroups, mem_groups] at hsg
    obtain ⟨db, hdb, rp, hrp, hsg⟩ := hsg
    exact DatabaseInfo.removeOwner_eq_self_iff.mp (h db hdb) rp hrp sg hsg
  · intro h db hdb
    rw [DatabaseInfo.removeOwner_eq_self_iff]
    intro rp hrp sg hsg
    have hmem : sg ∈ d.groups := by
      rw [hgroups, mem_groups]
      exact ⟨db, hdb, rp, hrp, hsg⟩
    exact (hself sg hmem).mpr (h sg hmem)

theorem deleteMetaNode_frame_owned :
    (oneShard [⟨2⟩]).metaNode 3 = some ⟨3, "c:8091", "c:8089", []⟩ ∧
      (∀ s ∈ (oneShard [⟨2⟩]).shards, ¬ s.OwnedBy 3) ∧
      ∃ d', (oneShard [⟨2⟩]).deleteMetaNode 3 20 = .ok d' ∧
        d' = { oneShard [⟨2⟩] with metaNodes := d'.metaNodes } := by
  have hnode : (oneShard [⟨2⟩]).metaNode 3 = some ⟨3, "c:8091", "c:8089", []⟩ := by decide +kernel
  have hown : ∀ s ∈ (oneShard [⟨2⟩]).shards, ¬ s.OwnedBy 3 := by decide +kernel
  refine ⟨hnode, hown, (deleteMetaNode_frame_iff rfl hnode hown 20).mpr ?_⟩
  decide +kernel

/-- **A live group whose shard has no owner is deleted with a meta node that has nothing to do with
    it.** -/
theorem deleteMetaNode_marks_group :
    (oneShard []).metaNode 3 = some ⟨3, "c:8091", "c:8089", []⟩ ∧
      (∀ s ∈ (oneShard []).shards, ¬ s.OwnedBy 3) ∧
      ((oneShard []).groups.map ShardGroupInfo.deletedAt) = [0] ∧
      ∃ d', (oneShard []).deleteMetaNode 3 20 = .ok d' ∧
        d'.groups.map ShardGroupInfo.deletedAt = [20] := by
  refine ⟨by decide +kernel, by decide +kernel, by decide +kernel, ?_⟩
  exact ⟨(oneShard []).withoutMetaNode 3 20, by decide +kernel, by decide +kernel⟩

end Placement

end InfluxCluster.Meta
