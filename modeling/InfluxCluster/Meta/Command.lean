/-
  The commands of the meta store (`meta/internal/meta.proto`), and the two packages of other
  repositories that applying them needs: the methods of the embedded `meta.Data`, and raft's removal
  of a peer.

  A command is a type and one EXTENSION per type; nothing ties the two together.  `GetExtension`
  gives a nil value for an extension that is absent or that does not decode, and `Ext` keeps these
  apart from a decoded one.  Extensions that no handler reads are left out.

  The methods of the embedded data are parameters (`Embedded`).  Of them only `DeleteShardGroup`
  reads the wall clock, which is an argument here.  None of them panics.
-/
import InfluxCluster.Meta.Snapshot

namespace InfluxCluster.Meta

open InfluxCluster.Lib

/-! ## Types of commands -/

/-- `Command.Type`; an enumeration of proto2 also takes numbers that it does not declare. -/
inductive CommandType
  | createDatabase | dropDatabase
  | createRetentionPolicy | dropRetentionPolicy | setDefaultRetentionPolicy | updateRetentionPolicy
  | createShardGroup | deleteShardGroup
  | createContinuousQuery | dropContinuousQuery
  | createUser | dropUser | updateUser | setPrivilege
  | createRole | dropRole | addRoleUsers | removeRoleUsers
  | addRolePermissions | removeRolePermissions
  | setData | setAdminPrivilege
  | createSubscription | dropSubscription
  | removePeer
  | createMetaNode | createDataNode | updateDataNode | deleteMetaNode | deleteDataNode | setMetaNode
  | dropShard | importData
  | setUserPassword | addUserPermissions | removeUserPermissions
  | addShardOwner | removeShardOwner
  | addPendingShardOwner | commitPendingShardOwner | removePendingShardOwner
  | truncateShardGroups | changeRoleName | createBalancedShardGroup
  | undeclared (n : Int)
  deriving DecidableEq

/-! ## Extensions -/

/-- `CreateDatabaseCommand`. -/
structure CreateDatabaseCommand where
  name : String
  retentionPolicy : Bytes
  deriving DecidableEq

/-- The name of what is dropped. -/
structure NameCommand where
  name : String
  deriving DecidableEq

/-- `DropDatabaseCommand`. -/
abbrev DropDatabaseCommand := NameCommand

/-- `DropUserCommand`. -/
abbrev DropUserCommand := NameCommand

/-- The name of what is dropped from a database. -/
structure DatabaseNameCommand where
  database : String
  name : String
  deriving DecidableEq

/-- `DropRetentionPolicyCommand`. -/
abbrev DropRetentionPolicyCommand := DatabaseNameCommand

/-- `DropContinuousQueryCommand`. -/
abbrev DropContinuousQueryCommand := DatabaseNameCommand

/-- `UpdateRetentionPolicyCommand`. -/
structure UpdateRetentionPolicyCommand where
  database : String
  name : String
  newName : Option String
  duration : Option Int
  replicaN : Option UInt32
  deriving DecidableEq

/-- `CreateShardGroupCommand`. -/
structure CreateShardGroupCommand where
  database : String
  policy : String
  timestamp : Int
  deriving DecidableEq

/-- `DeleteShardGroupCommand`. -/
structure DeleteShardGroupCommand where
  database : String
  policy : String
  shardGroupID : UInt64
  deriving DecidableEq

/-- `CreateContinuousQueryCommand`. -/
structure CreateContinuousQueryCommand where
  database : String
  name : String
  query : String
  deriving DecidableEq

/-- `CreateUserCommand`. -/
structure CreateUserCommand where
  name : String
  hash : String
  admin : Bool
  deriving DecidableEq

/-- `UpdateUserCommand`. -/
structure UpdateUserCommand where
  name : String
  hash : String
  deriving DecidableEq

/-- `SetPrivilegeCommand`. -/
structure SetPrivilegeCommand where
  username : String
  database : String
  privilege : Int
  deriving DecidableEq

/-- `SetAdminPrivilegeCommand`. -/
structure SetAdminPrivilegeCommand where
  username : String
  admin : Bool
  deriving DecidableEq

/-- `CreateSubscriptionCommand`. -/
structure CreateSubscriptionCommand where
  name : String
  database : String
  retentionPolicy : String
  mode : String
  destinations : List String
  deriving DecidableEq

/-- `DropSubscriptionCommand`. -/
structure DropSubscriptionCommand where
  name : String
  database : String
  retentionPolicy : String
  deriving DecidableEq

/-- `SetDataCommand`. -/
structure SetDataCommand where
  data : Bytes
  deriving DecidableEq

/-- `RemovePeerCommand`, as far as it is read. -/
structure RemovePeerCommand where
  addr : String
  deriving DecidableEq

/-- A meta node, and the identifier that a cluster without one gets. -/
structure MetaNodeCommand where
  httpAddr : String
  tcpAddr : String
  rand : UInt64
  deriving DecidableEq

/-- `CreateMetaNodeCommand`. -/
abbrev CreateMetaNodeCommand := MetaNodeCommand

/-- `SetMetaNodeCommand`. -/
abbrev SetMetaNodeCommand := MetaNodeCommand

/-- The identifier of the node that is deleted. -/
structure NodeIDCommand where
  id : UInt64
  deriving DecidableEq

/-- `DeleteMetaNodeCommand`. -/
abbrev DeleteMetaNodeCommand := NodeIDCommand

/-- `DeleteDataNodeCommand`. -/
abbrev DeleteDataNodeCommand := NodeIDCommand

/-- An extension of a command. -/
inductive Ext (α : Type)
  | absent
  | malformed
  | present (v : α)
  deriving DecidableEq

/-- The type assertion on the extension succeeds. -/
def Ext.IsPresent {α : Type} : Ext α → Prop
  | .present _ => True
  | _ => False

/-- `internal.Command`. -/
structure Command where
  type : CommandType
  createDatabase : Ext CreateDatabaseCommand := .absent
  dropDatabase : Ext DropDatabaseCommand := .absent
  dropRetentionPolicy : Ext DropRetentionPolicyCommand := .absent
  updateRetentionPolicy : Ext UpdateRetentionPolicyCommand := .absent
  createShardGroup : Ext CreateShardGroupCommand := .absent
  deleteShardGroup : Ext DeleteShardGroupCommand := .absent
  createContinuousQuery : Ext CreateContinuousQueryCommand := .absent
  dropContinuousQuery : Ext DropContinuousQueryCommand := .absent
  createUser : Ext CreateUserCommand := .absent
  dropUser : Ext DropUserCommand := .absent
  updateUser : Ext UpdateUserCommand := .absent
  setPrivilege : Ext SetPrivilegeCommand := .absent
  setData : Ext SetDataCommand := .absent
  setAdminPrivilege : Ext SetAdminPrivilegeCommand := .absent
  createSubscription : Ext CreateSubscriptionCommand := .absent
  dropSubscription : Ext DropSubscriptionCommand := .absent
  removePeer : Ext RemovePeerCommand := .absent
  createMetaNode : Ext CreateMetaNodeCommand := .absent
  deleteMetaNode : Ext DeleteMetaNodeCommand := .absent
  deleteDataNode : Ext DeleteDataNodeCommand := .absent
  setMetaNode : Ext SetMetaNodeCommand := .absent
  deriving DecidableEq

/-- `proto.Unmarshal` into a command, or the text of its error. -/
abbrev CommandCodec := Bytes → Except String Command

/-- `raft.Log`. -/
structure Log where
  term : UInt64
  index : UInt64
  data : Bytes
  deriving DecidableEq

/-! ## The embedded data -/

/-- `meta.RetentionPolicyUpdate`. -/
structure RetentionPolicyUpdate where
  name : Option String
  duration : Option Int
  replicaN : Option Int
  shardGroupDuration : Option Int := none
  deriving DecidableEq

/-- The package `meta` of the embedded data: each method gives the changed data or the text of its
    error. -/
structure Embedded (X : Type) extends EmbeddedCodec X where
  createDatabase : String → MetaData X → Except String (MetaData X)
  dropDatabase : String → MetaData X → Except String (MetaData X)
  createRetentionPolicy :
    String → RetentionPolicyInfo → Bool → MetaData X → Except String (MetaData X)
  dropRetentionPolicy : String → String → MetaData X → Except String (MetaData X)
  updateRetentionPolicy :
    String → String → RetentionPolicyUpdate → Bool → MetaData X → Except String (MetaData X)
  createShardGroup : String → String → Time → MetaData X → Except String (MetaData X)
  deleteShardGroup : String → String → UInt64 → Time → MetaData X → Except String (MetaData X)
  createContinuousQuery : String → String → String → MetaData X → Except String (MetaData X)
  dropContinuousQuery : String → String → MetaData X → Except String (MetaData X)
  createSubscription :
    String → String → String → String → List String → MetaData X → Except String (MetaData X)
  dropSubscription : String → String → String → MetaData X → Except String (MetaData X)
  createUser : String → String → Bool → MetaData X → Except String (MetaData X)
  dropUser : String → MetaData X → Except String (MetaData X)
  updateUser : String → String → MetaData X → Except String (MetaData X)
  setPrivilege : String → String → Int → MetaData X → Except String (MetaData X)
  setAdminPrivilege : String → Bool → MetaData X → Except String (MetaData X)
  /-- `RetentionPolicyInfo.UnmarshalBinary`. -/
  unmarshalRetentionPolicy : Bytes → Option RetentionPolicyInfo
  /-- `NewRetentionPolicyInfo`. -/
  newRetentionPolicyInfo : String → RetentionPolicyInfo

/-- A package whose methods change nothing, with this in what it reads. -/
def Embedded.still {X : Type} (rest : X) : Embedded X where
  marshalBinary _ := some []
  unmarshalBinary _ := { term := 0, index := 0, clusterID := 0, databases := [],
                         maxShardGroupID := 0, maxShardID := 0, rest := rest }
  createDatabase _ m := .ok m
  dropDatabase _ m := .ok m
  createRetentionPolicy _ _ _ m := .ok m
  dropRetentionPolicy _ _ m := .ok m
  updateRetentionPolicy _ _ _ _ m := .ok m
  createShardGroup _ _ _ m := .ok m
  deleteShardGroup _ _ _ _ m := .ok m
  createContinuousQuery _ _ _ m := .ok m
  dropContinuousQuery _ _ m := .ok m
  createSubscription _ _ _ _ _ m := .ok m
  dropSubscription _ _ _ m := .ok m
  createUser _ _ _ m := .ok m
  dropUser _ m := .ok m
  updateUser _ _ m := .ok m
  setPrivilege _ _ _ m := .ok m
  setAdminPrivilege _ _ m := .ok m
  unmarshalRetentionPolicy _ := none
  newRetentionPolicyInfo name :=
    { name := name, replicaN := 1, duration := 0, shardGroupDuration := 0, shardGroups := [] }

/-- A package that changes nothing and keeps nothing of its own. -/
def Embedded.idle : Embedded Unit := .still ()

/-- A protobuf that reads nothing back. -/
def Protobuf.idle : Protobuf where
  encode _ := []
  decode _ := none

/-! ## The replica -/

/-- An error of raft. -/
inductive RaftErr
  /-- `raft.ErrNotLeader`. -/
  | notLeader
  | other (text : String)
  deriving DecidableEq

/-- What a replica sees of its surroundings while it applies one entry. -/
structure Env where
  isLeader : Bool
  /-- `peerStore.Peers()`. -/
  peers : Except String (List String)
  /-- The error of the future of `raft.RemovePeer(addr)`. -/
  raftRemovePeer : String → Option RaftErr
  now : Time

/-- `raftState.removePeer`: the error it returns. -/
def Env.removePeer (env : Env) (addr : String) : Option RaftErr :=
  if env.isLeader then
    match env.peers with
    | .error text => some (.other text)
    | .ok peers => if addr ∈ peers then env.raftRemovePeer addr else none
  else some .notLeader

/-- `store.leave`. -/
def Env.leave (env : Env) (n : NodeInfo) : Option RaftErr := env.removePeer n.tcpHost

/-- `MetaConfig`, as far as it is read. -/
structure MetaConfig where
  retentionAutoCreate : Bool
  deriving DecidableEq

end InfluxCluster.Meta
