/-
  The state machine of the meta store (`meta/store_fsm.go`): `storeFSM.Apply` and its handlers.

  The state is `fsm.data`.  A handler that returns an error leaves the data as it was; but a PANIC
  is not an error: it takes the replica down, and the entry stays in the log.  `Stop` tells the two
  apart.

  HANDLERS.  Most of them do the same: assert the extension, clone the data, call one method of the
  embedded data on the clone, and put the clone in place.  They are `applyEmbedded` at the method
  and its arguments.  Note what cloning does to `Users` (`Data.clone`).  Four of the 25 cases do not
  read the extension at all, since their body is commented out or missing.

  `applyUpdateDataNodeCommand` is a handler that `Apply` never calls, and is left out.
-/
import InfluxCluster.Meta.Command

namespace InfluxCluster.Meta

open InfluxCluster.Lib

/-- What a handler does to `fsm.data`. -/
abbrev FsmM (X : Type) := EStateM Stop (Data X)

section Handlers

variable {X : Type} {α : Type}

/-! ## What the handlers have in common -/

/-- `ext, _ := proto.GetExtension(…); v := ext.(*T)`. -/
def assertExt (ext : Ext α) : FsmM X α :=
  match ext with
  | .present v => pure v
  | _ => throw .panicked

/-- `other := fsm.data.Clone()`. -/
def cloneData : FsmM X (Data X) := do
  match (← get).clone with
  | some other => pure other
  | none => throw .panicked

/-- `other.Data.Op(…)`: the data with the embedded data changed, or the error. -/
def callEmbedded (op : MetaData X → Except String (MetaData X)) (other : Data X) :
    FsmM X (Data X) :=
  match other.data with
  | none => throw .panicked
  | some m =>
    match op m with
    | .error text => throw (.err (.embedded text))
    | .ok m' => pure { other with data := some m' }

/-- A handler that calls one method of the embedded data. -/
def applyEmbedded (ext : Ext α) (op : α → MetaData X → Except String (MetaData X)) :
    FsmM X Unit := do
  let v ← assertExt ext
  let other ← cloneData
  let other ← callEmbedded (op v) other
  set other

/-- A handler whose body is commented out: the clone is put in place. -/
def applyClone : FsmM X Unit := do
  let other ← cloneData
  set other

/-! ## The handlers -/

variable (P : Protobuf) (emb : Embedded X) (config : MetaConfig) (env : Env) (cmd : Command)

/-- `applyRemovePeerCommand`. -/
def applyRemovePeerCommand : FsmM X Unit := do
  let v ← assertExt cmd.removePeer
  if env.isLeader then
    -- an error is logged and otherwise ignored
    let _err := env.removePeer v.addr
    pure ()

/-- The check of the error by which `applyCreateDatabaseCommand` tells a conflict. -/
def orConflict (x : FsmM X α) : FsmM X α := fun d =>
  match x d with
  | .error (.err .retentionPolicyExists) d' => .error (.err .retentionPolicyConflict) d'
  | r => r

/-- `maxAutoCreatedRetentionPolicyReplicaN`. -/
def maxAutoCreatedRetentionPolicyReplicaN : Nat := 3

/-- `autoCreateRetentionPolicyName`. -/
def autoCreateRetentionPolicyName : String := "default"

/-- `autoCreateRetentionPolicyPeriod`. -/
def autoCreateRetentionPolicyPeriod : Int := 0

/-- The replication factor of a policy that is created automatically. -/
def autoReplicaN (dataNodes : Nat) : Nat :=
  if dataNodes > maxAutoCreatedRetentionPolicyReplicaN then maxAutoCreatedRetentionPolicyReplicaN
  else if dataNodes < 1 then 1
  else dataNodes

/-- The retention policy of a new database: that of the command, or one created automatically. -/
def createDefaultPolicy (v : CreateDatabaseCommand) (other : Data X) : FsmM X (Data X) :=
  match emb.unmarshalRetentionPolicy v.retentionPolicy with
  | some rpi =>
    orConflict (callEmbedded (emb.createRetentionPolicy v.name
      { name := rpi.name, replicaN := rpi.replicaN, duration := rpi.duration,
        shardGroupDuration := rpi.shardGroupDuration, shardGroups := [] } true) other)
  | none =>
    if config.retentionAutoCreate then
      callEmbedded (emb.createRetentionPolicy v.name
        { emb.newRetentionPolicyInfo autoCreateRetentionPolicyName with
          replicaN := autoReplicaN other.dataNodes.length
          duration := autoCreateRetentionPolicyPeriod } true) other
    else pure other

/-- `applyCreateDatabaseCommand`. -/
def applyCreateDatabaseCommand : FsmM X Unit := do
  let v ← assertExt cmd.createDatabase
  let other ← cloneData
  let other ← callEmbedded (emb.createDatabase v.name) other
  let other ← createDefaultPolicy emb config v other
  set other

/-- `applyDropDatabaseCommand`. -/
def applyDropDatabaseCommand : FsmM X Unit :=
  applyEmbedded cmd.dropDatabase fun v => emb.dropDatabase v.name

/-- `applyCreateRetentionPolicyCommand`. -/
def applyCreateRetentionPolicyCommand : FsmM X Unit := applyClone

/-- `applyDropRetentionPolicyCommand`. -/
def applyDropRetentionPolicyCommand : FsmM X Unit :=
  applyEmbedded cmd.dropRetentionPolicy fun v => emb.dropRetentionPolicy v.database v.name

/-- `applySetDefaultRetentionPolicyCommand`. -/
def applySetDefaultRetentionPolicyCommand : FsmM X Unit := applyClone

/-- `applyUpdateRetentionPolicyCommand`. -/
def applyUpdateRetentionPolicyCommand : FsmM X Unit :=
  applyEmbedded cmd.updateRetentionPolicy fun v =>
    emb.updateRetentionPolicy v.database v.name
      { name := v.newName, duration := v.duration,
        replicaN := v.replicaN.map fun n => (n.toNat : Int) } false

/-- `time.Unix(0, nsec)`, from Go's zero time on. -/
def unixNano (nsec : Int) : Time := nsec + 62135596800 * 10 ^ 9

/-- `applyCreateShardGroupCommand`. -/
def applyCreateShardGroupCommand : FsmM X Unit :=
  applyEmbedded cmd.createShardGroup fun v =>
    emb.createShardGroup v.database v.policy (unixNano v.timestamp)

/-- `applyDeleteShardGroupCommand`. -/
def applyDeleteShardGroupCommand : FsmM X Unit :=
  applyEmbedded cmd.deleteShardGroup fun v =>
    emb.deleteShardGroup v.database v.policy v.shardGroupID env.now

/-- `applyCreateContinuousQueryCommand`. -/
def applyCreateContinuousQueryCommand : FsmM X Unit :=
  applyEmbedded cmd.createContinuousQuery fun v =>
    emb.createContinuousQuery v.database v.name v.query

/-- `applyDropContinuousQueryCommand`. -/
def applyDropContinuousQueryCommand : FsmM X Unit :=
  applyEmbedded cmd.dropContinuousQuery fun v => emb.dropContinuousQuery v.database v.name

/-- `applyCreateSubscriptionCommand`. -/
def applyCreateSubscriptionCommand : FsmM X Unit :=
  applyEmbedded cmd.createSubscription fun v =>
    emb.createSubscription v.database v.retentionPolicy v.name v.mode v.destinations

/-- `applyDropSubscriptionCommand`. -/
def applyDropSubscriptionCommand : FsmM X Unit :=
  applyEmbedded cmd.dropSubscription fun v =>
    emb.dropSubscription v.database v.retentionPolicy v.name

/-- `applyCreateUserCommand`. -/
def applyCreateUserCommand : FsmM X Unit :=
  applyEmbedded cmd.createUser fun v => emb.createUser v.name v.hash v.admin

/-- `applyDropUserCommand`. -/
def applyDropUserCommand : FsmM X Unit :=
  applyEmbedded cmd.dropUser fun v => emb.dropUser v.name

/-- `applyUpdateUserCommand`. -/
def applyUpdateUserCommand : FsmM X Unit :=
  applyEmbedded cmd.updateUser fun v => emb.updateUser v.name v.hash

/-- `applySetPrivilegeCommand`. -/
def applySetPrivilegeCommand : FsmM X Unit :=
  applyEmbedded cmd.setPrivilege fun v => emb.setPrivilege v.username v.database v.privilege

/-- `applySetAdminPrivilegeCommand`. -/
def applySetAdminPrivilegeCommand : FsmM X Unit :=
  applyEmbedded cmd.setAdminPrivilege fun v => emb.setAdminPrivilege v.username v.admin

/-- `applySetDataCommand`: the data is zero before the payload is decoded, and the error of
    decoding is not looked at. -/
def applySetDataCommand : FsmM X Unit := do
  let v ← assertExt cmd.setData
  set (Data.zero : Data X)
  match Data.zero.unmarshalBinary P emb.toEmbeddedCodec v.data with
  | .ok data => set data
  | .error _ => pure ()

/-- The cluster identifier of a cluster that has none becomes the random number. -/
def Data.defaultClusterID (rand : UInt64) (d : Data X) : Data X :=
  { d with data := d.data.map fun m => if m.clusterID = 0 then { m with clusterID := rand } else m }

/-- `applyCreateMetaNodeCommand`. -/
def applyCreateMetaNodeCommand : FsmM X Unit := do
  let v ← assertExt cmd.createMetaNode
  let other ← cloneData
  let other := other.ignoringErr (other.createMetaNode v.httpAddr v.tcpAddr)
  set (other.defaultClusterID v.rand)

/-- `applySetMetaNodeCommand`: the node gets the identifier of the cluster. -/
def applySetMetaNodeCommand : FsmM X Unit := do
  let v ← assertExt cmd.setMetaNode
  let other ← cloneData
  let other := other.defaultClusterID v.rand
  match other.data with
  | none => throw .panicked
  | some m => set (other.ignoringErr (other.setMetaNode m.clusterID v.httpAddr v.tcpAddr))

/-- A call that changes the clone or returns an error, which is returned in turn. -/
def setOrReturn (r : Except MetaErr (Data X)) : FsmM X Unit :=
  match r with
  | .error e => throw (.err e)
  | .ok other => set other

/-- `applyDeleteMetaNodeCommand`. -/
def applyDeleteMetaNodeCommand : FsmM X Unit := do
  let v ← assertExt cmd.deleteMetaNode
  let other ← cloneData
  match other.metaNode v.id with
  | none => throw (.err .nodeNotFound)
  | some node =>
    match env.leave node with
    | some (.other text) => throw (.err (.raft text))
    | _ => setOrReturn (other.deleteMetaNode v.id env.now)

/-- `applyCreateDataNodeCommand`. -/
def applyCreateDataNodeCommand : FsmM X Unit := applyClone

/-- `applyDeleteDataNodeCommand`. -/
def applyDeleteDataNodeCommand : FsmM X Unit := do
  let v ← assertExt cmd.deleteDataNode
  let other ← cloneData
  setOrReturn (other.deleteDataNode v.id)

/-! ## `Apply` -/

/-- The switch over the type of the command.  `AddShardOwnerCommand` has a case without a body. -/
def dispatch : FsmM X Unit :=
  match cmd.type with
  | .removePeer => applyRemovePeerCommand env cmd
  | .createDatabase => applyCreateDatabaseCommand emb config cmd
  | .dropDatabase => applyDropDatabaseCommand emb cmd
  | .createRetentionPolicy => applyCreateRetentionPolicyCommand
  | .dropRetentionPolicy => applyDropRetentionPolicyCommand emb cmd
  | .setDefaultRetentionPolicy => applySetDefaultRetentionPolicyCommand
  | .updateRetentionPolicy => applyUpdateRetentionPolicyCommand emb cmd
  | .createShardGroup => applyCreateShardGroupCommand emb cmd
  | .deleteShardGroup => applyDeleteShardGroupCommand emb env cmd
  | .createContinuousQuery => applyCreateContinuousQueryCommand emb cmd
  | .dropContinuousQuery => applyDropContinuousQueryCommand emb cmd
  | .createSubscription => applyCreateSubscriptionCommand emb cmd
  | .dropSubscription => applyDropSubscriptionCommand emb cmd
  | .createUser => applyCreateUserCommand emb cmd
  | .dropUser => applyDropUserCommand emb cmd
  | .updateUser => applyUpdateUserCommand emb cmd
  | .setPrivilege => applySetPrivilegeCommand emb cmd
  | .setAdminPrivilege => applySetAdminPrivilegeCommand emb cmd
  | .setData => applySetDataCommand P emb cmd
  | .createMetaNode => applyCreateMetaNodeCommand cmd
  | .deleteMetaNode => applyDeleteMetaNodeCommand env cmd
  | .setMetaNode => applySetMetaNodeCommand cmd
  | .createDataNode => applyCreateDataNodeCommand
  | .deleteDataNode => applyDeleteDataNodeCommand cmd
  | .addShardOwner => pure ()
  | _ => throw .panicked

/-- Term and index of the entry are copied to the data; `none` if the embedded data is nil. -/
def Data.stamp (l : Log) (d : Data X) : Option (Data X) :=
  match d.data with
  | none => none
  | some m => some { d with data := some { m with term := l.term, index := l.index } }

/-- `Apply` after the switch: unless that panicked, the data is stamped and its result returned. -/
def settle (l : Log) : EStateM.Result Stop (Data X) Unit → EStateM.Result Stop (Data X) Unit
  | .error .panicked d => .error .panicked d
  | .error (.err e) d =>
    match d.stamp l with
    | none => .error .panicked d
    | some d' => .error (.err e) d'
  | .ok _ d =>
    match d.stamp l with
    | none => .error .panicked d
    | some d' => .ok () d'

/-- `storeFSM.Apply`. -/
def apply (C : CommandCodec) (l : Log) : FsmM X Unit := fun d =>
  match C l.data with
  | .error _ => .error .panicked d
  | .ok cmd => settle l (dispatch P emb config env cmd d)

/-- The data that a replica is left with; `none` if it panicked. -/
def outcome : EStateM.Result Stop (Data X) Unit → Option (Data X)
  | .error .panicked _ => none
  | .error (.err _) d => some d
  | .ok _ d => some d

theorem outcome_settle (l : Log) (r : EStateM.Result Stop (Data X) Unit) :
    outcome (settle l r) = (outcome r).bind (Data.stamp l) := by
  rcases r with ⟨a, d⟩ | ⟨_ | _, d⟩
  · rw [settle, outcome, Option.bind_some]
    cases d.stamp l with
    | none => rfl
    | some d' => rfl
  · rw [settle, outcome, Option.bind_some]
    cases d.stamp l with
    | none => rfl
    | some d' => rfl
  · rfl

/-! ## The steps of a handler -/

theorem assertExt_present (v : α) (d : Data X) : assertExt (.present v) d = .ok v d := rfl

theorem cloneData_ok {d : Data X} (hd : d.data.isSome) : cloneData d = .ok d.cloned d := by
  obtain ⟨m, hm⟩ := Option.isSome_iff_exists.mp hd
  have hc : d.clone = some d.cloned := by rw [Data.clone, hm]
  show (match d.clone with | some other => pure other | none => throw .panicked : FsmM X _) d = _
  rw [hc]
  rfl

theorem cloneData_panics {d : Data X} (hd : d.data = none) : cloneData d = .error .panicked d := by
  have hc : d.clone = none := by rw [Data.clone, hd]
  show (match d.clone with | some other => pure other | none => throw .panicked : FsmM X _) d = _
  rw [hc]
  rfl

theorem callEmbedded_ok {op : MetaData X → Except String (MetaData X)} (other : Data X)
    {m m' : MetaData X} (hm : other.data = some m) (h : op m = .ok m') (d : Data X) :
    callEmbedded op other d = .ok { other with data := some m' } d := by
  rw [callEmbedded, hm]
  dsimp only
  rw [h]
  rfl

theorem callEmbedded_error {op : MetaData X → Except String (MetaData X)} (other : Data X)
    {m : MetaData X} {text : String} (hm : other.data = some m) (h : op m = .error text)
    (d : Data X) : callEmbedded op other d = .error (.err (.embedded text)) d := by
  rw [callEmbedded, hm]
  dsimp only
  rw [h]
  rfl

end Handlers

end InfluxCluster.Meta
