/-
  Where the replicas of a new group go (`meta/data.go`, `CreateShardGroup`).

  With `n` data nodes and a replication factor of `k` a group has `n / k` shards, and each is on `k`
  nodes.  The nodes are dealt out ROUND ROBIN, from the node at `Index % n` on, over all shards of
  the group.  That makes `(n / k) * k` slots, at most `n`, and so no node gets two of them: the slots
  are a window of the numbers modulo `n` that is not longer than `n` (`turn_injOn`).

  The factor is the policy's, but at least 1 and at most `n` (`replicas_eq`).
-/
import InfluxCluster.Meta.ShardGroups
import Mathlib.Data.Nat.ModEq

namespace InfluxCluster.Meta

/-! ## The round robin -/

/-- The node whose turn it is in slot `i`. -/
def turn (nodes : List NodeInfo) (i : Nat) : UInt64 :=
  ((nodes[i % nodes.length]?).map NodeInfo.id).getD 0

section RoundRobin

variable {nodes : List NodeInfo} {replicaN : Nat}

theorem turn_eq (hne : nodes ≠ []) (i : Nat) :
    ∃ h : i % nodes.length < nodes.length, turn nodes i = (nodes.get ⟨i % nodes.length, h⟩).id := by
  have hlt : i % nodes.length < nodes.length := Nat.mod_lt _ (List.length_pos_iff.mpr hne)
  refine ⟨hlt, ?_⟩
  rw [turn, List.getElem?_eq_getElem hlt]
  rfl

/-- A node has its turn. -/
theorem turn_mem (hne : nodes ≠ []) (i : Nat) : ∃ node ∈ nodes, node.id = turn nodes i := by
  obtain ⟨hlt, he⟩ := turn_eq hne i
  exact ⟨_, List.get_mem nodes _, he.symm⟩

/-- **In a window that is not longer than the list of nodes every slot has its own node.** -/
theorem turn_injOn (hne : nodes ≠ []) (hids : (nodes.map NodeInfo.id).Nodup) {start i j : Nat}
    (hi : i < nodes.length) (hj : j < nodes.length)
    (h : turn nodes (start + i) = turn nodes (start + j)) : i = j := by
  obtain ⟨hlti, hti⟩ := turn_eq hne (start + i)
  obtain ⟨hltj, htj⟩ := turn_eq hne (start + j)
  rw [hti, htj] at h
  have hmod : (start + i) % nodes.length = (start + j) % nodes.length := by
    have hinj := List.inj_on_of_nodup_map hids (List.get_mem nodes _) (List.get_mem nodes _) h
    exact congrArg Fin.val ((hids.of_map).injective_get hinj)
  -- two numbers below the length that are congruent are the same
  have hcong : Nat.ModEq nodes.length i j := Nat.ModEq.add_left_cancel' start hmod
  exact Nat.ModEq.eq_of_lt_of_lt hcong hi hj

/-- A shard of the group has the next `replicaN` nodes. -/
theorem assignOwners_length {nodeIndex : Nat} {shards : List ShardInfo}
    (hnew : ∀ si ∈ shards, si.owners = []) :
    ∀ si ∈ assignOwners nodes replicaN nodeIndex shards, si.owners.length = replicaN := by
  induction shards generalizing nodeIndex with
  | nil => exact fun si hsi => absurd hsi List.not_mem_nil
  | cons s shards ih =>
    intro si hsi
    rcases List.mem_cons.mp hsi with rfl | hsi
    · dsimp only
      rw [hnew s List.mem_cons_self, List.nil_append, List.length_map, List.length_range]
    · exact ih (fun x hx => hnew x (List.mem_cons_of_mem s hx)) si hsi

/-- **The owners of all shards, one after the other, are the nodes in their turns**, by induction on
    the shards. -/
theorem assignOwners_turns (nodes : List NodeInfo) (replicaN nodeIndex : Nat)
    {shards : List ShardInfo} (hnew : ∀ si ∈ shards, si.owners = []) :
    ((assignOwners nodes replicaN nodeIndex shards).flatMap fun si => si.owners.map ShardOwner.nodeID)
      = (List.range (shards.length * replicaN)).map fun j => turn nodes (nodeIndex + j) := by
  induction shards generalizing nodeIndex with
  | nil =>
    rw [List.length_nil, Nat.zero_mul]
    rfl
  | cons s shards ih =>
    have hrest := ih (nodeIndex + replicaN) fun x hx => hnew x (List.mem_cons_of_mem s hx)
    rw [assignOwners, List.flatMap_cons, hrest, hnew s List.mem_cons_self, List.nil_append,
      List.length_cons, Nat.succ_mul, Nat.add_comm (_ * _) replicaN, List.range_add, List.map_append]
    congr 1
    · rw [List.map_map]
      rfl
    · rw [List.map_map]
      refine List.map_congr_left fun j _ => ?_
      show turn nodes (nodeIndex + replicaN + j) = turn nodes (nodeIndex + (replicaN + j))
      rw [Nat.add_assoc]

theorem generatedShards_new (n : Nat) (maxShardID : UInt64) :
    ∀ si ∈ (generatedShards n maxShardID).1, si.owners = [] := by
  induction n generalizing maxShardID with
  | zero => exact fun si hsi => absurd hsi List.not_mem_nil
  | succ n ih =>
    intro si hsi
    rcases List.mem_cons.mp hsi with rfl | hsi
    · rfl
    · exact ih _ si hsi

end RoundRobin

/-! ## A new group -/

/-- **Even placement** of a group over the nodes with a replication factor of `k`. -/
structure EvenlyPlaced (nodes : List NodeInfo) (k : Nat) (sg : ShardGroupInfo) : Prop where
  shards : sg.shards.length = nodes.length / k
  replicated : ∀ si ∈ sg.shards, si.owners.length = k
  current : ∀ si ∈ sg.shards, ∀ o ∈ si.owners, ∃ node ∈ nodes, node.id = o.nodeID
  once : (sg.shards.flatMap fun si => si.owners.map ShardOwner.nodeID).Nodup

section Group

variable {X : Type} {d : Data X} {m : MetaData X} {rpi : RetentionPolicyInfo}

theorem newShardGroup_shards_length (timestamp : Time) (replicaN : Int) (shardN : Nat) :
    (newShardGroup d m rpi timestamp replicaN shardN).shards.length = shardN := by
  have hids := congrArg List.length (assignOwners_ids d.dataNodes replicaN.toNat
    (m.index.toNat % d.dataNodes.length) (generatedShards shardN m.maxShardID).1)
  rw [List.length_map, List.length_map, generatedShards_length] at hids
  exact hids

/-- **A new group is evenly placed.** -/
theorem newShardGroup_evenlyPlaced (timestamp : Time) (k : Nat) (hne : d.dataNodes ≠ [])
    (hids : (d.dataNodes.map NodeInfo.id).Nodup) :
    EvenlyPlaced d.dataNodes k (newShardGroup d m rpi timestamp k (d.dataNodes.length / k)) := by
  set shards := (generatedShards (d.dataNodes.length / k) m.maxShardID).1 with hshards
  have hnew : ∀ si ∈ shards, si.owners = [] := generatedShards_new _ _
  have hlen : shards.length = d.dataNodes.length / k := generatedShards_length _ _
  have hturns := assignOwners_turns d.dataNodes k (m.index.toNat % d.dataNodes.length) hnew
  rw [hlen] at hturns
  refine ⟨newShardGroup_shards_length _ _ _, assignOwners_length hnew, fun si hsi o ho => ?_, ?_⟩
  · have hmem : o.nodeID ∈ (newShardGroup d m rpi timestamp k (d.dataNodes.length / k)).shards.flatMap
        fun si => si.owners.map ShardOwner.nodeID :=
      List.mem_flatMap.mpr ⟨si, hsi, List.mem_map_of_mem ho⟩
    obtain ⟨j, -, hj⟩ := List.mem_map.mp (hturns ▸ hmem)
    rw [← hj]
    exact turn_mem hne _
  · refine hturns ▸ List.Nodup.map_on (fun i hi j hj h => ?_) List.nodup_range
    -- there are not more slots than nodes
    have hslots := Nat.div_mul_le_self d.dataNodes.length k
    rw [List.mem_range] at hi hj
    exact turn_injOn hne hids (by omega) (by omega) h

/-- The replication factor: the policy's, at least 1 and at most the number of nodes. -/
theorem replicas_eq {r : Int} {n : Nat} (hr : 0 ≤ r) (hn : 1 ≤ n) :
    replicas r n = (min (max r.toNat 1) n : Nat) := by
  unfold replicas
  split_ifs <;> omega

/-- **A call that finds no group makes one**, of `n / k` shards. -/
theorem createShardGroup_makes (E : EmbeddedGroups) (database policy : String) (timestamp : Time)
    (hd : d.data = some m) (hn : 1 ≤ d.dataNodes.length)
    (hpolicy : m.retentionPolicy E database policy = .ok (some rpi)) (hr : 0 ≤ rpi.replicaN)
    (hnone : E.shardGroupByTimestamp rpi timestamp = none) {k : Nat}
    (hk : k = min (max rpi.replicaN.toNat 1) d.dataNodes.length) :
    createShardGroup E database policy timestamp d = .ok () { d with
      data := some (m.addShardGroup E database policy
        (newShardGroup d m rpi timestamp k (d.dataNodes.length / k))
        (generatedShards (d.dataNodes.length / k) m.maxShardID).2) } := by
  have hreplicas : replicas rpi.replicaN d.dataNodes.length = (k : Int) := by
    rw [replicas_eq hr hn, hk]
  have hshardN : ((d.dataNodes.length : Int).tdiv k) = (d.dataNodes.length / k : Nat) :=
    (Int.ofNat_tdiv _ _).symm
  rw [createShardGroup, if_neg (by omega), hd]
  dsimp only
  rw [hpolicy]
  dsimp only
  rw [hnone, Option.isSome_none, if_neg Bool.false_ne_true, hreplicas, hshardN,
    if_neg (Int.not_lt.mpr (Int.natCast_nonneg _)), Int.toNat_natCast]

/-- **Even replica placement.**  A group that `CreateShardGroup` adds has `n / k` shards, at least
    one, where `k` is the policy's replication factor, at least 1 and at most `n`; every shard has
    `k` owners, all owners are data nodes, and no node is an owner twice. -/
theorem created_group_evenly_placed (E : EmbeddedGroups) (database policy : String)
    (timestamp : Time) (hE : E.Lawful) (hd : d.data = some m) (hn : 1 ≤ d.dataNodes.length)
    (hids : (d.dataNodes.map NodeInfo.id).Nodup)
    (hpolicy : m.retentionPolicy E database policy = .ok (some rpi)) (hr : 0 ≤ rpi.replicaN) :
    (createShardGroup E database policy timestamp d = .ok () d) ∨
    ∃ m' sg, createShardGroup E database policy timestamp d = .ok () { d with data := some m' } ∧
      m'.groups.Perm (sg :: m.groups) ∧
      1 ≤ d.dataNodes.length / min (max rpi.replicaN.toNat 1) d.dataNodes.length ∧
      EvenlyPlaced d.dataNodes (min (max rpi.replicaN.toNat 1) d.dataNodes.length) sg := by
  have hne : d.dataNodes ≠ [] := List.length_pos_iff.mp hn
  rcases hfound : E.shardGroupByTimestamp rpi timestamp with _ | sg
  · exact .inr ⟨_, _, createShardGroup_makes E database policy timestamp hd hn hpolicy hr hfound rfl,
      addShardGroup_groups hE hpolicy _ _, Nat.div_pos (by omega) (by omega),
      newShardGroup_evenlyPlaced timestamp _ hne hids⟩
  · exact .inl (createShardGroup_found hd hpolicy (by rw [hfound]; rfl))

end Group

/-- A policy with two replicas. -/
def twoReplicas : RetentionPolicyInfo :=
  { name := "rp", replicaN := 2, duration := 0, shardGroupDuration := 10, shardGroups := [] }

/-- The policy, and five data nodes. -/
def fiveDataNodes : Data Unit :=
  { data := some { tenNanoseconds with
      databases := [{ name := "db", retentionPolicies := [twoReplicas] }] }
    metaNodes := []
    dataNodes := [
      { id := 1, host := "a:8091", tcpHost := "a:8088", pendingShardOwners := [] },
      { id := 2, host := "b:8091", tcpHost := "b:8088", pendingShardOwners := [] },
      { id := 4, host := "c:8091", tcpHost := "c:8088", pendingShardOwners := [] },
      { id := 7, host := "d:8091", tcpHost := "d:8088", pendingShardOwners := [] },
      { id := 8, host := "e:8091", tcpHost := "e:8088", pendingShardOwners := [] }]
    users := []
    roles := []
    maxNodeID := 8 }

/-- Two shards on two nodes each; the fifth node gets none. -/
theorem created_group_evenly_placed_five : ∃ m' sg,
    createShardGroup findAndSort "db" "rp" 12 fiveDataNodes
      = .ok () { fiveDataNodes with data := some m' } ∧
    m'.groups = [sg] ∧ sg.shards.length = 2 ∧ EvenlyPlaced fiveDataNodes.dataNodes 2 sg := by
  have hpolicy : ({ tenNanoseconds with
      databases := [{ name := "db", retentionPolicies := [twoReplicas] }] } :
      MetaData Unit).retentionPolicy findAndSort "db" "rp" = .ok (some twoReplicas) := by
    decide +kernel
  rcases created_group_evenly_placed findAndSort "db" "rp" 12 (d := fiveDataNodes)
    findAndSort_lawful rfl (by decide) (by decide) hpolicy (by decide) with
    hsame | ⟨m', sg, he, hgroups, -, hplaced⟩
  · have hnew : ((Lib.final (createShardGroup findAndSort "db" "rp" 12 fiveDataNodes)).data.map
        fun m => m.groups.length) = some 1 := by
      decide +kernel
    rw [hsame] at hnew
    cases hnew
  · exact ⟨m', sg, he, List.perm_singleton.mp hgroups, hplaced.shards, hplaced⟩

end InfluxCluster.Meta
