/-
  The messages of `meta/internal/meta.proto` on the wire.

  `proto.Unmarshal` reads a command: its type, which is required, and whatever is there in the range
  of the extensions, each under a number of its own.  An extension is only looked into when a
  handler asks for it, so one that does not decode does not spoil the command.

  `ClusterData` is the message of a snapshot.  Written without a required field, it is not read
  again: `proto.Marshal` gives the bytes beside its error, and `proto.Unmarshal` refuses them
  (`clusterProto_strict`).
-/
import InfluxCluster.Lib.Protobuf
import InfluxCluster.Meta.Command

namespace InfluxCluster.Meta

open InfluxCluster.Lib InfluxCluster.Lib.Protobuf

/-! ## Fields -/

/-- The text under `num`; without one there is none. -/
def textField (num : Nat) (fs : List Field) : Option String :=
  (texts (blobs num fs)).bind List.getLast?

/-- The bytes under `num`. -/
def bytesField (num : Nat) (fs : List Field) : Option Bytes := (blobs num fs).getLast?

/-- The number under `num`. -/
def uint64Field (num : Nat) (fs : List Field) : Option UInt64 :=
  ((uints num fs).map UInt64.ofNat).getLast?

/-- The number under `num`, as one of so many bits in two's complement. -/
def intField (bits num : Nat) (fs : List Field) : Option Int :=
  ((uints num fs).map fun n => Int.bmod n (2 ^ bits)).getLast?

/-- The truth value under `num`. -/
def boolField (num : Nat) (fs : List Field) : Option Bool :=
  ((uints num fs).map fun n => decide (n ≠ 0)).getLast?

/-! ## Commands -/

/-- The types in the order of their numbers, from 1 on. -/
def commandTypes : List CommandType :=
  [.createDatabase, .dropDatabase, .createRetentionPolicy, .dropRetentionPolicy,
    .setDefaultRetentionPolicy, .updateRetentionPolicy, .createShardGroup, .deleteShardGroup,
    .createContinuousQuery, .dropContinuousQuery, .createUser, .dropUser, .updateUser,
    .setPrivilege, .createRole, .dropRole, .addRoleUsers, .removeRoleUsers, .addRolePermissions,
    .removeRolePermissions, .setData, .setAdminPrivilege, .createSubscription, .dropSubscription,
    .removePeer, .createMetaNode, .createDataNode, .updateDataNode, .deleteMetaNode,
    .deleteDataNode, .setMetaNode, .dropShard, .importData, .setUserPassword, .addUserPermissions,
    .removeUserPermissions, .addShardOwner, .removeShardOwner, .addPendingShardOwner,
    .commitPendingShardOwner, .removePendingShardOwner, .truncateShardGroups, .changeRoleName,
    .createBalancedShardGroup]

/-- The type of that number. -/
def commandType (n : Int) : CommandType :=
  if n ≤ 0 then .undeclared n else (commandTypes[n.toNat - 1]?).getD (.undeclared n)

/-- The extension under `num`.  One that comes in parts is put together. -/
def extension {α : Type} (num : Nat) (read : List Field → Option α) (fs : List Field) : Ext α :=
  match blobs num fs with
  | [] => .absent
  | bs =>
    match (parse bs.flatten).bind read with
    | none => .malformed
    | some v => .present v

def readNodeID (fs : List Field) : Option NodeIDCommand := do
  some { id := ← uint64Field 1 fs }

def readName (fs : List Field) : Option NameCommand := do
  some { name := ← textField 1 fs }

def readDatabaseName (fs : List Field) : Option DatabaseNameCommand := do
  some { database := ← textField 1 fs, name := ← textField 2 fs }

def readMetaNode (fs : List Field) : Option MetaNodeCommand := do
  some { httpAddr := ← textField 1 fs, tcpAddr := ← textField 2 fs, rand := ← uint64Field 3 fs }

def readCreateDatabase (fs : List Field) : Option CreateDatabaseCommand := do
  some { name := ← textField 1 fs, retentionPolicy := (bytesField 2 fs).getD [] }

def readUpdateRetentionPolicy (fs : List Field) : Option UpdateRetentionPolicyCommand := do
  some
    { database := ← textField 1 fs
      name := ← textField 2 fs
      newName := (← texts (blobs 3 fs)).getLast?
      duration := intField 64 4 fs
      replicaN := ((uints 5 fs).map UInt32.ofNat).getLast? }

def readCreateShardGroup (fs : List Field) : Option CreateShardGroupCommand := do
  some
    { database := ← textField 1 fs
      policy := ← textField 2 fs
      timestamp := ← intField 64 3 fs }

def readDeleteShardGroup (fs : List Field) : Option DeleteShardGroupCommand := do
  some
    { database := ← textField 1 fs
      policy := ← textField 2 fs
      shardGroupID := ← uint64Field 3 fs }

def readCreateContinuousQuery (fs : List Field) : Option CreateContinuousQueryCommand := do
  some { database := ← textField 1 fs, name := ← textField 2 fs, query := ← textField 3 fs }

def readCreateUser (fs : List Field) : Option CreateUserCommand := do
  some { name := ← textField 1 fs, hash := ← textField 2 fs, admin := ← boolField 3 fs }

def readUpdateUser (fs : List Field) : Option UpdateUserCommand := do
  some { name := ← textField 1 fs, hash := ← textField 2 fs }

def readSetPrivilege (fs : List Field) : Option SetPrivilegeCommand := do
  some
    { username := ← textField 1 fs
      database := ← textField 2 fs
      privilege := ← intField 32 3 fs }

def readSetData (fs : List Field) : Option SetDataCommand := do
  some { data := ← bytesField 1 fs }

def readSetAdminPrivilege (fs : List Field) : Option SetAdminPrivilegeCommand := do
  some { username := ← textField 1 fs, admin := ← boolField 2 fs }

def readCreateSubscription (fs : List Field) : Option CreateSubscriptionCommand := do
  some
    { name := ← textField 1 fs
      database := ← textField 2 fs
      retentionPolicy := ← textField 3 fs
      mode := ← textField 4 fs
      destinations := ← texts (blobs 5 fs) }

def readDropSubscription (fs : List Field) : Option DropSubscriptionCommand := do
  some
    { name := ← textField 1 fs
      database := ← textField 2 fs
      retentionPolicy := ← textField 3 fs }

/-- The identifier under 1 is optional, and nobody reads it. -/
def readRemovePeer (fs : List Field) : Option RemovePeerCommand := do
  some { addr := ← textField 2 fs }

/-- **`proto.Unmarshal` into a command.** -/
def unmarshalCommand : CommandCodec := fun b =>
  match parse b with
  | none => .error "unexpected EOF"
  | some fs =>
    match intField 32 1 fs with
    | none => .error "proto: required field not set"
    | some n => .ok
        { type := commandType n
          createDatabase := extension 101 readCreateDatabase fs
          dropDatabase := extension 102 readName fs
          dropRetentionPolicy := extension 104 readDatabaseName fs
          updateRetentionPolicy := extension 106 readUpdateRetentionPolicy fs
          createShardGroup := extension 107 readCreateShardGroup fs
          deleteShardGroup := extension 108 readDeleteShardGroup fs
          createContinuousQuery := extension 109 readCreateContinuousQuery fs
          dropContinuousQuery := extension 110 readDatabaseName fs
          createUser := extension 111 readCreateUser fs
          dropUser := extension 112 readName fs
          updateUser := extension 113 readUpdateUser fs
          setPrivilege := extension 114 readSetPrivilege fs
          setData := extension 121 readSetData fs
          setAdminPrivilege := extension 122 readSetAdminPrivilege fs
          createSubscription := extension 123 readCreateSubscription fs
          dropSubscription := extension 124 readDropSubscription fs
          removePeer := extension 125 readRemovePeer fs
          createMetaNode := extension 126 readMetaNode fs
          deleteMetaNode := extension 129 readNodeID fs
          deleteDataNode := extension 130 readNodeID fs
          setMetaNode := extension 131 readMetaNode fs }

/-- Drop the database `db`. -/
example : unmarshalCommand [8, 2, 178, 6, 4, 10, 2, 100, 98]
    = .ok { type := .dropDatabase, dropDatabase := .present { name := "db" } } := by
  decide +kernel

/-! ## Snapshots -/

def NodeInfoPB.toFields (pb : NodeInfoPB) : List Field :=
  ofUints 1 (pb.id.toList.map UInt64.toNat) ++ ofBlobs 2 (pb.host.toList.map utf8) ++
    ofBlobs 3 (pb.tcpHost.toList.map utf8) ++ ofUints 4 (pb.pendingShardOwners.map UInt64.toNat)

def NodeInfoPB.ofFields (fs : List Field) : Option NodeInfoPB := do
  some
    { id := uint64Field 1 fs
      host := (← texts (blobs 2 fs)).getLast?
      tcpHost := (← texts (blobs 3 fs)).getLast?
      pendingShardOwners := (uints 4 fs).map UInt64.ofNat }

def UserInfoPB.toFields (pb : UserInfoPB) : List Field :=
  ofBlobs 1 (pb.name.toList.map utf8) ++ ofBlobs 2 (pb.hash.toList.map utf8)

def UserInfoPB.ofFields (fs : List Field) : Option UserInfoPB := do
  some { name := (← texts (blobs 1 fs)).getLast?, hash := (← texts (blobs 2 fs)).getLast? }

/-- Messages under one number; there is nothing to write for a nil element. -/
def ofMessages {α : Type} (num : Nat) (toFields : α → List Field) (l : List (Option α)) :
    List Field :=
  ofBlobs num ((l.filterMap id).map fun x => encode (toFields x))

/-- The messages under `num`. -/
def messages {α : Type} (num : Nat) (ofFields : List Field → Option α) (fs : List Field) :
    Option (List (Option α)) :=
  (blobs num fs).mapM fun b => ((parse b).bind ofFields).map some

def ClusterData.toFields (pb : ClusterData) : List Field :=
  ofBlobs 1 pb.data.toList ++ ofUints 2 (pb.maxNodeID.toList.map UInt64.toNat) ++
    ofMessages 3 NodeInfoPB.toFields pb.dataNodes ++
    ofMessages 4 NodeInfoPB.toFields pb.metaNodes ++ ofMessages 6 UserInfoPB.toFields pb.users

def ClusterData.ofFields (fs : List Field) : Option ClusterData := do
  some
    { data := bytesField 1 fs
      maxNodeID := uint64Field 2 fs
      dataNodes := ← messages 3 NodeInfoPB.ofFields fs
      metaNodes := ← messages 4 NodeInfoPB.ofFields fs
      users := ← messages 6 UserInfoPB.ofFields fs }

/-- **The format of `ClusterData`.**  What lacks a required field is not read. -/
def clusterProto : Protobuf where
  encode pb := encode pb.toFields
  decode b := ((parse b).bind ClusterData.ofFields).filter ClusterData.initialized

/-- Protobuf wants the largest identifier. -/
structure Protobuf.Strict (P : Protobuf) : Prop where
  nothing : P.decode [] = none
  incomplete : ∀ pb : ClusterData, pb.maxNodeID = none → P.decode (P.encode pb) = none

theorem clusterProto_strict : clusterProto.Strict := by
  refine ⟨by decide +kernel, fun pb hpb => ?_⟩
  have hfields : uint64Field 2 pb.toFields = none := by
    simp [uint64Field, ClusterData.toFields, ofMessages, hpb]
  rw [clusterProto]
  dsimp only
  rw [parse_encode, Option.bind_some, Option.filter_eq_none_iff]
  intro pb' hpb' hset
  have hread : pb'.maxNodeID = none := by
    rw [ClusterData.ofFields] at hpb'
    simp only [Option.bind_eq_bind, Option.bind_eq_some_iff, Option.some.injEq] at hpb'
    obtain ⟨_, -, _, -, _, -, rfl⟩ := hpb'
    exact hfields
  simp [ClusterData.initialized, hread] at hset

end InfluxCluster.Meta
