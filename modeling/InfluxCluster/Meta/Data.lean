/-
  The metadata of the cluster (`meta/data.go`): the node registries, and the operations on them that
  the state machine calls.

  EMBEDDED DATA.  `Data` wraps the `meta.Data` of another repository.  Of that structure this one
  reads and writes the databases down to the owners of the shards, `Term`, `Index`, `ClusterID` and
  the two shard counters; everything else it holds (users, subscriptions, continuous queries, …) is
  one value `rest` of an arbitrary type `X`.  The pointer to it can be nil, and is `Option`.

  Slices are lists; a nil slice is the empty one.  Identifiers are `uint64` and wrap.  `sort.Sort`
  with fewer than twelve elements is an insertion sort, and with different identifiers every sort
  gives the same, so `NodeInfos` are sorted by insertion.

  `clone` is what the source computes, not a copy: `CloneUsers` makes a slice of the right length
  and fills in nothing.
-/
import Mathlib.Data.List.Sort
import InfluxCluster.Lib.Bytes

namespace InfluxCluster.Meta

/-! ## Types -/

/-- Nanoseconds since Go's zero time. -/
abbrev Time := Int

/-- `meta.ShardOwner`. -/
structure ShardOwner where
  nodeID : UInt64
  deriving DecidableEq

/-- `meta.ShardInfo`. -/
structure ShardInfo where
  id : UInt64
  owners : List ShardOwner
  deriving DecidableEq

/-- `meta.ShardGroupInfo`; the zero time as `deletedAt` means that it is not deleted. -/
structure ShardGroupInfo where
  id : UInt64
  startTime : Time
  endTime : Time
  deletedAt : Time
  shards : List ShardInfo
  deriving DecidableEq

/-- `meta.RetentionPolicyInfo`. -/
structure RetentionPolicyInfo where
  name : String
  replicaN : Int
  duration : Int
  shardGroupDuration : Int
  shardGroups : List ShardGroupInfo
  deriving DecidableEq

/-- `meta.DatabaseInfo`. -/
structure DatabaseInfo where
  name : String
  retentionPolicies : List RetentionPolicyInfo
  deriving DecidableEq

/-- `meta.Data`. -/
structure MetaData (X : Type) where
  term : UInt64
  index : UInt64
  clusterID : UInt64
  databases : List DatabaseInfo
  maxShardGroupID : UInt64
  maxShardID : UInt64
  rest : X
  deriving DecidableEq

/-- `type NodeInfo struct`. -/
structure NodeInfo where
  id : UInt64
  host : String
  tcpHost : String
  pendingShardOwners : List UInt64
  deriving DecidableEq

/-- `type UserInfo struct` (`Privileges` is a structure without fields). -/
structure UserInfo where
  name : String
  hash : String
  admin : Bool
  deriving DecidableEq

/-- `type RoleInfo struct`. -/
structure RoleInfo where
  users : List UserInfo
  deriving DecidableEq

/-- `type Data struct`. -/
structure Data (X : Type) where
  data : Option (MetaData X)
  metaNodes : List NodeInfo
  dataNodes : List NodeInfo
  users : List UserInfo
  roles : List RoleInfo
  maxNodeID : UInt64
  deriving DecidableEq

/-- Errors of the metadata; those of the embedded package are known by their texts. -/
inductive MetaErr
  /-- "node already exists". -/
  | nodeExists
  /-- "node not found". -/
  | nodeNotFound
  /-- "retention policy already exists". -/
  | retentionPolicyExists
  /-- "retention policy conflicts with an existing policy". -/
  | retentionPolicyConflict
  /-- "user already exists". -/
  | userExists
  /-- "username required". -/
  | usernameRequired
  | embedded (text : String)
  /-- An error of raft. -/
  | raft (text : String)
  /-- A message that protobuf cannot write, or bytes that it cannot read. -/
  | proto
  /-- Reading or writing a snapshot failed. -/
  | snapshot (text : String)
  deriving DecidableEq

/-- How a call ends other than by returning nil: it returns an error, or panics. -/
inductive Stop
  | err (e : MetaErr)
  | panicked
  deriving DecidableEq

/-- `&Data{}`. -/
def Data.zero {X : Type} : Data X :=
  { data := none, metaNodes := [], dataNodes := [], users := [], roles := [], maxNodeID := 0 }

/-- The data of `newStore`; `rest` is what a zero `meta.Data` holds otherwise. -/
def newStoreData {X : Type} (rest : X) : Data X :=
  { (Data.zero : Data X) with
    data := some { term := 0, index := 1, clusterID := 0, databases := [],
                   maxShardGroupID := 0, maxShardID := 0, rest := rest } }

/-! ## Nodes -/

/-- `sort.Sort(NodeInfos(nodes))`. -/
def sortNodeInfos (nodes : List NodeInfo) : List NodeInfo :=
  nodes.insertionSort fun a b => a.id ≤ b.id

/-- What is looked up by a key is there, and has the key. -/
theorem find?_key {α β : Type} [DecidableEq β] {f : α → β} {b : β} {l : List α} {a : α}
    (h : l.find? (fun x => f x = b) = some a) : a ∈ l ∧ f a = b :=
  ⟨List.mem_of_find?_eq_some h, of_decide_eq_true (List.find?_some h :)⟩

/-- A list is its image if every element is its own. -/
theorem eq_map_iff {α : Type} {f : α → α} {l : List α} : l = l.map f ↔ ∀ a ∈ l, f a = a := by
  have h : l.map f = l.map id ↔ ∀ a ∈ l, f a = id a := List.map_inj_left
  rw [List.map_id] at h
  exact eq_comm.trans h

/-- Without the identifier of one of them, there are fewer nodes. -/
theorem length_filter_id_lt {nodes : List NodeInfo} {id : UInt64} {node : NodeInfo}
    (h : nodes.find? (fun n => n.id = id) = some node) :
    (nodes.filter fun n => n.id ≠ id).length < nodes.length := by
  obtain ⟨hmem, hid⟩ := find?_key h
  apply List.length_filter_lt_length_iff_exists.mpr
  refine ⟨node, hmem, ?_⟩
  rw [hid]
  simp

namespace Data

variable {X : Type}

/-- `CloneUsers`: as many users as there are, all of them zero. -/
def cloneUsers (d : Data X) : List UserInfo :=
  d.users.map fun _ => { name := "", hash := "", admin := false }

/-- The copy that `Clone` makes. -/
def cloned (d : Data X) : Data X := { d with users := d.cloneUsers }

/-- `Clone`; `none` when the embedded data is nil. -/
def clone (d : Data X) : Option (Data X) :=
  match d.data with
  | none => none
  | some _ => some d.cloned

/-- `Data.Index`; data without the embedded data has none, and zero stands for it. -/
def index (d : Data X) : UInt64 := (d.data.map MetaData.index).getD 0

/-- A call that changes the data or returns an error, when the error is not looked at. -/
def ignoringErr (d : Data X) : Except MetaErr (Data X) → Data X
  | .ok d' => d'
  | .error _ => d

/-- `MetaNode`. -/
def metaNode (d : Data X) (id : UInt64) : Option NodeInfo := d.metaNodes.find? fun n => n.id = id

/-- `DataNode`. -/
def dataNode (d : Data X) (id : UInt64) : Option NodeInfo := d.dataNodes.find? fun n => n.id = id

/-- The identifier of a node that is to be created: that of the first meta node at this address,
    or else a new one. -/
def nodeID (d : Data X) (tcpHost : String) : UInt64 × UInt64 :=
  let existingID := ((d.metaNodes.find? fun n => n.tcpHost = tcpHost).map NodeInfo.id).getD 0
  if existingID = 0 then (d.maxNodeID + 1, d.maxNodeID + 1) else (existingID, d.maxNodeID)

/-- `CreateMetaNode`. -/
def createMetaNode (d : Data X) (host tcpHost : String) : Except MetaErr (Data X) :=
  -- the source ranges over DataNodes here, as in `CreateDataNode`
  if d.dataNodes.any fun n => n.tcpHost = tcpHost then .error .nodeExists
  else
    let (existingID, maxNodeID) := d.nodeID tcpHost
    .ok { d with
      maxNodeID := maxNodeID
      metaNodes := sortNodeInfos (d.metaNodes ++
        [{ id := existingID, host := host, tcpHost := tcpHost, pendingShardOwners := [] }]) }

/-- `SetMetaNode`. -/
def setMetaNode (d : Data X) (nodeID : UInt64) (host tcpHost : String) : Except MetaErr (Data X) :=
  if d.metaNodes.any fun n => n.host = host then .error .nodeExists
  else
    -- appended without sorting, and MaxNodeID stays
    .ok { d with
      metaNodes := d.metaNodes ++
        [{ id := nodeID, host := host, tcpHost := tcpHost, pendingShardOwners := [] }] }

/-- `CreateDataNode`. -/
def createDataNode (d : Data X) (host tcpHost : String) : Except MetaErr (Data X) :=
  if d.dataNodes.any fun n => n.tcpHost = tcpHost then .error .nodeExists
  else
    let (existingID, maxNodeID) := d.nodeID tcpHost
    .ok { d with
      maxNodeID := maxNodeID
      dataNodes := sortNodeInfos (d.dataNodes ++
        [{ id := existingID, host := host, tcpHost := tcpHost, pendingShardOwners := [] }]) }

/-- `DeleteDataNode`. -/
def deleteDataNode (d : Data X) (id : UInt64) : Except MetaErr (Data X) :=
  let nodes := d.dataNodes.filter fun n => n.id ≠ id
  if nodes.length = d.dataNodes.length then .error .nodeNotFound
  else .ok { d with dataNodes := nodes }

/-! These operations are on the registries: the embedded data stays as it is. -/

/-- Behind a check, what is returned keeps the embedded data. -/
theorem data_of_guard {c : Prop} [Decidable c] {e : MetaErr} {d d₁ d' : Data X}
    (h : (if c then .error e else .ok d₁) = Except.ok d') (hd : d₁.data = d.data) :
    d'.data = d.data := by
  split at h
  · cases h
  · cases h
    exact hd

theorem data_createMetaNode {d d' : Data X} {host tcpHost : String}
    (h : d.createMetaNode host tcpHost = .ok d') : d'.data = d.data :=
  data_of_guard h rfl

theorem data_setMetaNode {d d' : Data X} {id : UInt64} {host tcpHost : String}
    (h : d.setMetaNode id host tcpHost = .ok d') : d'.data = d.data :=
  data_of_guard h rfl

theorem data_createDataNode {d d' : Data X} {host tcpHost : String}
    (h : d.createDataNode host tcpHost = .ok d') : d'.data = d.data :=
  data_of_guard h rfl

theorem data_deleteDataNode {d d' : Data X} {id : UInt64}
    (h : d.deleteDataNode id = .ok d') : d'.data = d.data :=
  data_of_guard h rfl

end Data

/-! ## `DeleteMetaNode` -/

/-- The loop over the owners of a shard: the index of the last one that is the node. -/
def ownerIndex (id : UInt64) : Nat → Option Nat → List ShardOwner → Option Nat
  | _, nodeIdx, [] => nodeIdx
  | i, nodeIdx, owner :: owners =>
    ownerIndex id (i + 1) (if owner.nodeID = id then some i else nodeIdx) owners

/-- The shard without the node among its owners: of several entries the last goes. -/
def ShardInfo.relinquish (id : UInt64) (s : ShardInfo) : ShardInfo :=
  match ownerIndex id 0 none s.owners with
  | some nodeIdx => { s with owners := s.owners.eraseIdx nodeIdx }
  | none => s

/-- Once the node has gone, the group has no shards or none of them has an owner. -/
def ShardGroupInfo.Orphaned (id : UInt64) (sg : ShardGroupInfo) : Prop :=
  sg.shards.length = 0 ∨
    ((sg.shards.map (ShardInfo.relinquish id)).filter fun s => s.owners.length = 0).length
      = sg.shards.length

instance (id : UInt64) (sg : ShardGroupInfo) : Decidable (sg.Orphaned id) :=
  inferInstanceAs (Decidable (_ ∨ _))

/-- The body of the loop over the shard groups.  The number of shards that each node owns is counted
    in the source, and nothing is done with it. -/
def ShardGroupInfo.removeOwner (id : UInt64) (now : Time) (sg : ShardGroupInfo) : ShardGroupInfo :=
  { sg with
    shards := sg.shards.map (ShardInfo.relinquish id)
    deletedAt := if sg.Orphaned id then now else sg.deletedAt }

/-- The loops over the policies of a database and over its shard groups. -/
def DatabaseInfo.removeOwner (id : UInt64) (now : Time) (db : DatabaseInfo) : DatabaseInfo :=
  { db with
    retentionPolicies := db.retentionPolicies.map fun rp =>
      { rp with shardGroups := rp.shardGroups.map (ShardGroupInfo.removeOwner id now) } }

namespace Data

variable {X : Type}

/-- What `DeleteMetaNode` makes of the data when it finds the node. -/
def withoutMetaNode (d : Data X) (id : UInt64) (now : Time) : Data X :=
  { d with
    metaNodes := d.metaNodes.filter fun n => n.id ≠ id
    data := d.data.map fun m =>
      { m with databases := m.databases.map (DatabaseInfo.removeOwner id now) } }

/-- `DeleteMetaNode`, at the time `now`. -/
def deleteMetaNode (d : Data X) (id : UInt64) (now : Time) : Except MetaErr (Data X) :=
  let nodes := d.metaNodes.filter fun n => n.id ≠ id
  if nodes.length = d.metaNodes.length then .error .nodeNotFound
  else .ok (d.withoutMetaNode id now)

/-- A node that is found is deleted, and the registry gets shorter. -/
theorem withoutMetaNode_lt {d : Data X} {id : UInt64} {node : NodeInfo}
    (h : d.metaNode id = some node) (now : Time) :
    (d.withoutMetaNode id now).metaNodes.length < d.metaNodes.length :=
  length_filter_id_lt h

theorem isSome_deleteMetaNode {d d' : Data X} {id : UInt64} {now : Time}
    (h : d.deleteMetaNode id now = .ok d') : d'.data.isSome = d.data.isSome := by
  rw [deleteMetaNode] at h
  split at h
  · cases h
  · cases h
    exact Option.isSome_map

/-- A meta node that is there is deleted. -/
theorem deleteMetaNode_ok {d : Data X} {id : UInt64} {node : NodeInfo}
    (h : d.metaNode id = some node) (now : Time) :
    d.deleteMetaNode id now = .ok (d.withoutMetaNode id now) := by
  have hlt := withoutMetaNode_lt h now
  exact if_neg hlt.ne

end Data

/-! ## Users -/

namespace Data

variable {X : Type}

/-- `User`. -/
def user (d : Data X) (username : String) : Option UserInfo :=
  d.users.find? fun u => u.name = username

/-- `CreateUser`. -/
def createUser (d : Data X) (name hash : String) (admin : Bool) : Except MetaErr (Data X) :=
  if name = "" then .error .usernameRequired
  else if (d.user name).isSome then .error .userExists
  else .ok { d with users := d.users ++ [{ name := name, hash := hash, admin := admin }] }

theorem data_createUser {d d' : Data X} {name hash : String} {admin : Bool}
    (h : d.createUser name hash admin = .ok d') : d'.data = d.data := by
  rw [createUser] at h
  split at h
  · cases h
  · split at h
    · cases h
    · cases h
      rfl

end Data

end InfluxCluster.Meta
