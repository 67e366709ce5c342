/-
  The owners of a shard (`meta/data.go`): `ShardLocation`, `UpdateShard`, `AddShardOwner`,
  `RemoveShardOwner` and `PruneShard`.

  THE CUT.  `PruneShard` looks for the node among the owners and moves what follows it one place to
  the front, in the slice that the shard has.  The two lines that would then shorten the slice are
  commented out.  So of `n` owners `n` are left: the last one twice, or, if the node was the last
  one, the node itself (`copyWithin_succ`).

  THE TEST.  `RemoveShardOwner` goes on to prune when `ShardLocation` has FAILED.  Then it has
  no shard, and `OwnedBy` reads through a nil pointer; and for a shard that is there nothing is
  done.  `UpdateShard`, which should store the new owners, returns an error whatever it is given.

  `ShardLocation` returns the address of the variable of its loop.  What is written to the fields of
  that shard does not get into the metadata, but its `Owners` are the array of the original.
-/
import InfluxCluster.Meta.Placement

namespace InfluxCluster.Meta

/-! ## `PruneShard` -/

/-- `copy(l[i:], l[j:])`: as many elements as both parts have, the others stay. -/
def copyWithin {α : Type} (l : List α) (i j : Nat) : List α :=
  l.take i ++ ((l.drop j).take (l.drop i).length ++ (l.drop i).drop (l.drop j).length)

/-- `PruneShard`: what it returns, and the shard afterwards. -/
def pruneShard (si : ShardInfo) (nodeID : UInt64) :
    Except String (List ShardOwner) × ShardInfo :=
  match si.owners.findIdx? fun o => o.nodeID = nodeID with
  | some found =>
    let owners := copyWithin si.owners found (found + 1)
    (.ok owners, { si with owners := owners })
  | none => (.error (s!"failed to find shard owner {nodeID}"), si)

theorem length_copyWithin {α : Type} (l : List α) (i j : Nat) :
    (copyWithin l i j).length = l.length := by
  unfold copyWithin
  simp only [List.length_append, List.length_take, List.length_drop]
  omega

/-- **Moving the tail by one place leaves the last element behind.** -/
theorem copyWithin_succ {α : Type} {l : List α} {i : Nat} (h : i < l.length) :
    copyWithin l i (i + 1) = l.eraseIdx i ++ l.drop (l.length - 1) := by
  have htake : (l.drop (i + 1)).take (l.drop i).length = l.drop (i + 1) := by
    apply List.take_of_length_le
    simp only [List.length_drop]
    omega
  have hdrop : (l.drop i).drop (l.drop (i + 1)).length = l.drop (l.length - 1) := by
    rw [List.drop_drop, List.length_drop]
    congr 1
    omega
  rw [copyWithin, htake, hdrop, List.eraseIdx_eq_take_drop_succ, List.append_assoc]

/-- A node that is not an owner: an error, and the shard stays. -/
theorem pruneShard_absent {si : ShardInfo} {nodeID : UInt64}
    (h : ¬ si.OwnedBy nodeID) :
    pruneShard si nodeID = (.error (s!"failed to find shard owner {nodeID}"), si) := by
  have hnone : si.owners.findIdx? (fun o => o.nodeID = nodeID) = none := by
    rw [List.findIdx?_eq_none_iff]
    intro o ho
    exact decide_eq_false fun he => h ⟨o, ho, he⟩
  rw [pruneShard, hnone]

/-- **An owner is cut out, and the last entry is there once more**: as many as before. -/
theorem pruneShard_present {si : ShardInfo} {nodeID : UInt64} (h : si.OwnedBy nodeID) :
    ∃ owners, pruneShard si nodeID = (.ok owners, { si with owners := owners }) ∧
      owners = si.owners.eraseIdx (si.owners.findIdx fun o => o.nodeID = nodeID)
        ++ si.owners.drop (si.owners.length - 1) ∧
      owners.length = si.owners.length := by
  have hlt : (si.owners.findIdx fun o => o.nodeID = nodeID) < si.owners.length := by
    obtain ⟨o, ho, he⟩ := h
    exact List.findIdx_lt_length_of_exists ⟨o, ho, decide_eq_true he⟩
  have hsome : si.owners.findIdx? (fun o => o.nodeID = nodeID)
      = some (si.owners.findIdx fun o => o.nodeID = nodeID) :=
    List.findIdx?_eq_some_of_exists (List.findIdx_lt_length.mp hlt)
  refine ⟨copyWithin si.owners _ (_ + 1), ?_, copyWithin_succ hlt, length_copyWithin _ _ _⟩
  rw [pruneShard, hsome]

/-- One owner is deleted: the list that is returned is the old one without the node, one shorter;
    a node that is not an owner is an error, and nothing changes. -/
def DeletesOneOwner (si : ShardInfo) (nodeID : UInt64) : Prop :=
  if si.OwnedBy nodeID then
    ∃ owners, (pruneShard si nodeID).1 = .ok owners ∧
      owners = (si.owners.filter fun o => o.nodeID ≠ nodeID) ∧
      owners.length + 1 = si.owners.length
  else ∃ err, pruneShard si nodeID = (.error err, si)

/-- **`PruneShard` never deletes an owner**: it does what it should for the nodes that are not in
    the list, and for no other. -/
theorem prunes_iff_not_owner (si : ShardInfo) (nodeID : UInt64) :
    DeletesOneOwner si nodeID ↔ ¬ si.OwnedBy nodeID := by
  unfold DeletesOneOwner
  constructor
  · intro h hmem
    rw [if_pos hmem] at h
    obtain ⟨owners, hok, -, hlen⟩ := h
    obtain ⟨owners', hrun, -, hlen'⟩ := pruneShard_present hmem
    rw [hrun] at hok
    cases hok
    omega
  · intro hmem
    rw [if_neg hmem]
    exact ⟨_, pruneShard_absent hmem⟩

/-- Shard 1 on the nodes 4, 5 and 6. -/
def threeOwners : ShardInfo := { id := 1, owners := [⟨4⟩, ⟨5⟩, ⟨6⟩] }

/-- Without node 4 the owners are 5, 6 and 6. -/
theorem prune_leaves_a_phantom :
    (pruneShard threeOwners 4).1.toOption = some [⟨5⟩, ⟨6⟩, ⟨6⟩] ∧
      ¬ DeletesOneOwner threeOwners 4 := by
  refine ⟨rfl, ?_⟩
  intro h
  rw [DeletesOneOwner, if_pos (by decide)] at h
  obtain ⟨owners, hok, -, hlen⟩ := h
  cases hok
  revert hlen
  decide

/-! ## The shards of the metadata -/

section Data

variable {X : Type}

/-- A change of every shard. -/
def MetaData.mapShards (f : ShardInfo → ShardInfo) (m : MetaData X) : MetaData X :=
  { m with databases := m.databases.map fun db =>
    { db with retentionPolicies := db.retentionPolicies.map fun rp =>
      { rp with shardGroups := rp.shardGroups.map fun sg =>
        { sg with shards := sg.shards.map f } } } }

def Data.mapShards (f : ShardInfo → ShardInfo) (d : Data X) : Data X :=
  { d with data := d.data.map (MetaData.mapShards f) }

/-- The loops of `ShardLocation`. -/
def MetaData.findShard (m : MetaData X) (shardID : UInt64) : Option ShardInfo :=
  m.databases.findSome? fun dbi =>
    dbi.retentionPolicies.findSome? fun rpi =>
      rpi.shardGroups.findSome? fun sg =>
        sg.shards.find? fun s => s.id = shardID

/-- `ShardLocation`: a pointer and an error; `none` when the embedded data is nil. -/
def Data.shardLocation (d : Data X) (shardID : UInt64) :
    Option (Option ShardInfo × Option String) :=
  d.data.map fun m =>
    match m.findShard shardID with
    | some s => (some s, none)
    | none => (none, some (s!"failed to find shards assoicated with {shardID}"))

/-- `UpdateShard`: the new owners are not looked at. -/
def updateShard (shardID : UInt64) (_newOwners : List ShardOwner) : String :=
  s!"Failed to find Shard assoicated with shard ID {shardID}"

/-- `AddShardOwner`: the error it returns; `none` when it panics. -/
def Data.addShardOwner (d : Data X) (shardID nodeID : UInt64) : Option (Option String) := do
  match ← d.shardLocation shardID with
  | (si, none) =>
    let si ← si
    if si.OwnedBy nodeID then return none
    if nodeID > d.maxNodeID then return none
    -- the only owner that is left is the new one
    return some (updateShard shardID [⟨nodeID⟩])
  | (_, some err) => return some err

/-- `RemoveShardOwner`: the error it returns and the data afterwards; `none` when it panics. -/
def Data.removeShardOwner (d : Data X) (shardID nodeID : UInt64) :
    Option (Option String × Data X) := do
  match ← d.shardLocation shardID with
  | (si, some err) =>
    -- OwnedBy reads the shard through the pointer
    let si ← si
    if si.OwnedBy nodeID then
      -- PruneShard writes to the array of the original, UpdateShard does nothing
      let pruned := (pruneShard si nodeID).2
      return (some err, d.mapShards fun s => if s.id = shardID then pruned else s)
    return (some err, d)
  | (_, none) => return (none, d)

/-- The loops find a shard if there is one. -/
theorem findShard_eq_none_iff {d : Data X} {m : MetaData X} (hd : d.data = some m)
    {shardID : UInt64} :
    m.findShard shardID = none ↔ ∀ s ∈ d.shards, s.id ≠ shardID := by
  simp only [MetaData.findShard, List.findSome?_eq_none_iff, List.find?_eq_none,
    decide_eq_true_eq, mem_shards, Data.groups, hd, Option.map_some, Option.getD_some, mem_groups]
  constructor
  · rintro h s ⟨sg, ⟨db, hdb, rp, hrp, hsg⟩, hs⟩
    exact h db hdb rp hrp sg hsg s hs
  · intro h db hdb rp hrp sg hsg s hs
    exact h s ⟨sg, ⟨db, hdb, rp, hrp, hsg⟩, hs⟩

theorem findShard_mem {d : Data X} {m : MetaData X} (hd : d.data = some m) {shardID : UInt64}
    {si : ShardInfo} (h : m.findShard shardID = some si) : ∃ s ∈ d.shards, s.id = shardID := by
  by_contra hno
  have hnone := (findShard_eq_none_iff hd).mpr fun s hs hid => hno ⟨s, hs, hid⟩
  rw [h] at hnone
  cases hnone

/-- **What `RemoveShardOwner` does**: without such a shard it panics, and with one it returns nil
    and leaves everything as it is. -/
theorem removeShardOwner_eq (d : Data X) (shardID nodeID : UInt64) :
    d.removeShardOwner shardID nodeID
      = if ∃ s ∈ d.shards, s.id = shardID then some (none, d) else none := by
  unfold Data.removeShardOwner Data.shardLocation
  cases hd : d.data with
  | none =>
    -- the loop over Databases reads through the nil pointer; there are no shards
    have hno : ¬ ∃ s ∈ d.shards, s.id = shardID := by
      simp [Data.shards, Data.groups, hd]
    rw [if_neg hno]
    rfl
  | some m =>
    cases hm : m.findShard shardID with
    | none =>
      have hno : ¬ ∃ s ∈ d.shards, s.id = shardID := by
        rintro ⟨s, hs, hid⟩
        exact (findShard_eq_none_iff hd).mp hm s hs hid
      rw [if_neg hno]
      simp [hm]
    | some si =>
      rw [if_pos (findShard_mem hd hm)]
      simp [hm]

/-! ## A shard without one of its owners -/

/-- The shard without the node among its owners. -/
def ShardInfo.without (nodeID : UInt64) (s : ShardInfo) : ShardInfo :=
  { s with owners := s.owners.filter fun o => o.nodeID ≠ nodeID }

/-- The owner is removed: of a shard that is there the owners are those from before without the node,
    in their order, and the other shards stay; without such a shard there is an error, and the data
    stays. -/
def Data.RemovesOwner (d : Data X) (shardID nodeID : UInt64) : Prop :=
  if ∃ s ∈ d.shards, s.id = shardID then
    ∃ err d', d.removeShardOwner shardID nodeID = some (err, d') ∧
      d'.shards = d.shards.map fun s => if s.id = shardID then s.without nodeID else s
  else ∃ err, d.removeShardOwner shardID nodeID = some (some err, d)

theorem without_eq_self_iff {s : ShardInfo} {nodeID : UInt64} :
    s.without nodeID = s ↔ ¬ s.OwnedBy nodeID := by
  constructor
  · rintro h ⟨o, ho, hid⟩
    have howners : (s.without nodeID).owners = s.owners := congrArg ShardInfo.owners h
    rw [← howners] at ho
    exact of_decide_eq_true (List.mem_filter.mp ho).2 hid
  · intro h
    have howners : (s.owners.filter fun o => o.nodeID ≠ nodeID) = s.owners :=
      List.filter_eq_self.mpr fun o ho => decide_eq_true fun hid => h ⟨o, ho, hid⟩
    rw [ShardInfo.without, howners]

/-- **`RemoveShardOwner` removes nothing**: it is right for a shard that is there and does not have
    the node, and in no other case. -/
theorem removesOwner_iff (d : Data X) (shardID nodeID : UInt64) :
    d.RemovesOwner shardID nodeID ↔
      (∃ s ∈ d.shards, s.id = shardID) ∧
        ∀ s ∈ d.shards, s.id = shardID → ¬ s.OwnedBy nodeID := by
  unfold Data.RemovesOwner
  rw [removeShardOwner_eq]
  by_cases hex : ∃ s ∈ d.shards, s.id = shardID
  · -- nothing changes, and the owners should be what they are
    rw [if_pos hex, if_pos hex]
    have hsame : (d.shards = d.shards.map fun s => if s.id = shardID then s.without nodeID else s) ↔
        ∀ s ∈ d.shards, s.id = shardID → ¬ s.OwnedBy nodeID := by
      rw [eq_map_iff]
      refine forall₂_congr fun s _ => ?_
      by_cases hid : s.id = shardID
      · rw [if_pos hid, without_eq_self_iff]
        exact ⟨fun h _ => h, fun h => h hid⟩
      · rw [if_neg hid]
        exact ⟨fun _ h => absurd h hid, fun _ => rfl⟩
    constructor
    · rintro ⟨err, d', hrun, hd'⟩
      cases hrun
      exact ⟨hex, hsame.mp hd'⟩
    · rintro ⟨-, h⟩
      exact ⟨none, d, rfl, hsame.mpr h⟩
  · -- the call panics, and should return an error
    rw [if_neg hex, if_neg hex]
    constructor
    · rintro ⟨err, hrun⟩
      cases hrun
    · rintro ⟨h, -⟩
      exact absurd h hex

end Data

/-- One shard, on the nodes 4, 5 and 6. -/
def shardOnThree : Data Unit :=
  { (newStoreData () : Data Unit) with
    data := some
      { term := 1, index := 1, clusterID := 0, maxShardGroupID := 1, maxShardID := 1, rest := ()
        databases := [{ name := "db", retentionPolicies := [
          { name := "rp", replicaN := 3, duration := 0, shardGroupDuration := 10
            shardGroups := [{ id := 1, startTime := 0, endTime := 10, deletedAt := 0
                              shards := [threeOwners] }] }] }] } }

/-- Node 4 stays an owner of shard 1, without an error; and for shard 2, which is not there, the call
    reads through a nil pointer. -/
theorem remove_owner_misses :
    shardOnThree.removeShardOwner 1 4 = some (none, shardOnThree) ∧ ¬ shardOnThree.RemovesOwner 1 4 ∧
      shardOnThree.removeShardOwner 2 4 = none ∧ ¬ shardOnThree.RemovesOwner 2 4 := by
  refine ⟨rfl, ?_, rfl, ?_⟩
  · intro h
    rw [Data.RemovesOwner, if_pos (by decide)] at h
    obtain ⟨err, d', hrun, hd'⟩ := h
    cases hrun
    revert hd'
    decide
  · intro h
    rw [Data.RemovesOwner, if_neg (by decide)] at h
    obtain ⟨err, hrun⟩ := h
    cases hrun

end InfluxCluster.Meta
