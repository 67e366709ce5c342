/-
  The statements of a query (`cluster/statement_executor.go`).

  `ExecuteStatement` turns a statement into CALLS: of the meta client, which change the metadata or
  read it, and of the local store, which delete data.  One call fails, and the rest is not made.
  So the model of a statement is a PLAN, the tree of the calls that the code would make next by what
  the last one has answered.  Many statements are executed at once, and their calls interleave.

  *  Data are deleted from the store only right after the metadata has given them up, or has said
     that their database is there.  And every statement that changes anything, `SELECT … INTO` among
     them, has a warning for it in a read-only query, except `DELETE`, which has none
     (`statements_guarded`).
  *  `SHOW SHARDS` has every shard that a query is sent to (`shown_of_queried`).

  A `SELECT` comes with what its emitter gives: any rows, errors and interruptions.  How its shards
  are found and its buckets counted is for `ShardsByTimeRange` and `BucketLimit`, and how a row
  becomes points for `SelectInto`; here that is one call, which may fail.
-/
import InfluxCluster.Cluster.SelectInto
import InfluxCluster.Lib.Lockstep
import InfluxCluster.Meta.ShardsByTimeRange

namespace InfluxCluster.Cluster.Statements

open InfluxCluster.Lib

/-! ## What the calls are about -/

/-- `influxql.Privilege`: nothing, reading, writing, both. -/
abbrev Privilege := BitVec 2

def noPrivileges : Privilege := 0

def allPrivileges : Privilege := 3

/-- A retention policy to be created. -/
structure NewPolicy where
  name : String
  duration : Int
  replicaN : Int
  shardGroupDuration : Int
  deriving DecidableEq

/-- `meta.RetentionPolicyUpdate`; a statement has no new name. -/
structure PolicyUpdate where
  duration : Option Int
  replicaN : Option Int
  shardGroupDuration : Option Int
  deriving DecidableEq

/-- The methods of the meta client that change the metadata. -/
inductive MetaCall
  | updateRetentionPolicy (database name : String) (update : PolicyUpdate)
  | setDefaultRetentionPolicy (database name : String)
  | createContinuousQuery (database name query : String)
  | createDatabase (name : String)
  | createDatabaseWithRetentionPolicy (name : String) (policy : NewPolicy)
  | createRetentionPolicy (database : String) (policy : NewPolicy)
  | createSubscription (database retentionPolicy name mode : String) (destinations : List String)
  | createUser (name password : String) (admin : Bool)
  | dropContinuousQuery (database name : String)
  | dropDatabase (name : String)
  | dropRetentionPolicy (database name : String)
  | dropShard (id : UInt64)
  | dropSubscription (database retentionPolicy name : String)
  | dropUser (name : String)
  | setPrivilege (user on : String) (privilege : Privilege)
  | setAdminPrivilege (user : String) (admin : Bool)
  | updateUser (name password : String)
  deriving DecidableEq

/-- The methods of the local store that delete data; sources and conditions are not looked into. -/
inductive StoreCall (Src C : Type)
  | deleteDatabase (name : String)
  | deleteMeasurement (database name : String)
  | deleteRetentionPolicy (database name : String)
  | deleteSeries (database : String) (sources : Src) (condition : C)
  | deleteShard (id : UInt64)

/-- `meta.SubscriptionInfo`. -/
structure SubscriptionInfo where
  name : String
  mode : String
  destinations : List String
  deriving DecidableEq

/-- `meta.RetentionPolicyInfo`, with its subscriptions. -/
structure PolicyInfo where
  info : Meta.RetentionPolicyInfo
  subscriptions : List SubscriptionInfo
  deriving DecidableEq

/-- `meta.DatabaseInfo`, with the fields that only queries look at. -/
structure DatabaseInfo where
  name : String
  defaultRetentionPolicy : String
  retentionPolicies : List PolicyInfo
  continuousQueries : List (String × String)
  deriving DecidableEq

/-- The fields that writes and lookups look at. -/
def DatabaseInfo.info (di : DatabaseInfo) : Meta.DatabaseInfo :=
  { name := di.name, retentionPolicies := di.retentionPolicies.map PolicyInfo.info }

/-- A cell of a row; a `float64` by its bits. -/
inductive Value
  | null
  | text (s : String)
  | texts (l : List String)
  | number (n : Int)
  | float (bits : UInt64)
  | bool (b : Bool)
  | time (t : Meta.Time)
  deriving DecidableEq

/-- `models.Row`. -/
structure Row where
  name : String
  columns : List String
  values : List (List Value)
  deriving DecidableEq

/-- What the `SHOW` statements read: `Databases`, `Users`, `UserPrivileges`, and the monitor. -/
structure Catalog where
  databases : List DatabaseInfo
  users : List (String × Bool)
  userPrivileges : String → Except String (List (String × Privilege))
  diagnostics : Except String (List Row)
  statistics : Except String (List Row)

/-- How times, durations and privileges are printed. -/
structure Printer where
  time : Meta.Time → String
  duration : Int → String
  privilege : Privilege → String

/-! ## `SHOW` -/

/-- `joinUint64`. -/
def joinUint64 (a : List UInt64) : String :=
  String.intercalate "," (a.map fun x => toString x.toNat)

/-- The ten `SHOW` statements; the module of two of them is empty if there is none. -/
inductive Show
  | continuousQueries
  | databases
  | diagnostics (module : String)
  | grantsForUser (name : String)
  | retentionPolicies (database : String)
  | shards
  | shardGroups
  | stats (module : String)
  | subscriptions
  | users
  deriving DecidableEq

section Rows

variable (P : Printer)

/-- `executeShowContinuousQueriesStatement`. -/
def showContinuousQueries (dis : List DatabaseInfo) : List Row :=
  dis.map fun di =>
    { name := di.name
      columns := ["name", "query"]
      values := di.continuousQueries.map fun cqi => [.text cqi.1, .text cqi.2] }

/-- `executeShowDatabasesStatement`. -/
def showDatabases (dis : List DatabaseInfo) : List Row :=
  [{ name := "databases", columns := ["name"], values := dis.map fun di => [.text di.name] }]

/-- The rows of one module, or of all. -/
def ofModule (module : String) (rows : List Row) : List Row :=
  rows.filter fun row => module = "" ∨ row.name = module

/-- `executeShowDiagnosticsStatement`: the keys of a map, in order. -/
def showDiagnostics (module : String) (diags : List Row) : List Row :=
  ofModule module (diags.mergeSort fun a b => a.name ≤ b.name)

/-- `executeShowGrantsForUserStatement`. -/
def showGrantsForUser (priv : List (String × Privilege)) : List Row :=
  [{ name := "", columns := ["database", "privilege"]
     values := priv.map fun dp => [.text dp.1, .text (P.privilege dp.2)] }]

/-- `executeShowRetentionPoliciesStatement`. -/
def showRetentionPolicies (di : DatabaseInfo) : List Row :=
  [{ name := ""
     columns := ["name", "duration", "shardGroupDuration", "replicaN", "default"]
     values := di.retentionPolicies.map fun rpi =>
       [.text rpi.info.name, .text (P.duration rpi.info.duration),
         .text (P.duration rpi.info.shardGroupDuration), .number rpi.info.replicaN,
         .bool (di.defaultRetentionPolicy = rpi.info.name)] }]

/-- A line of `SHOW SHARDS`. -/
def shardLine (di : DatabaseInfo) (rpi : Meta.RetentionPolicyInfo) (sgi : Meta.ShardGroupInfo)
    (si : Meta.ShardInfo) : List Value :=
  [.number si.id.toNat, .text di.name, .text rpi.name, .number sgi.id.toNat,
    .text (P.time sgi.startTime), .text (P.time sgi.endTime),
    .text (P.time (sgi.endTime + rpi.duration)),
    .text (joinUint64 (si.owners.map Meta.ShardOwner.nodeID))]

/-- `executeShowShardsStatement`. -/
def showShards (dis : List DatabaseInfo) : List Row :=
  dis.map fun di =>
    { name := di.name
      columns := ["id", "database", "retention_policy", "shard_group", "start_time", "end_time",
        "expiry_time", "owners"]
      values := di.retentionPolicies.flatMap fun rpi =>
        rpi.info.shardGroups.flatMap fun sgi =>
          -- shards associated with deleted shard groups are effectively deleted
          if sgi.deletedAt ≠ 0 then [] else sgi.shards.map (shardLine P di rpi.info sgi) }

/-- `executeShowShardGroupsStatement`. -/
def showShardGroups (dis : List DatabaseInfo) : List Row :=
  [{ name := "shard groups"
     columns := ["id", "database", "retention_policy", "start_time", "end_time", "expiry_time"]
     values := dis.flatMap fun di =>
       di.retentionPolicies.flatMap fun rpi =>
         rpi.info.shardGroups.flatMap fun sgi =>
           if sgi.deletedAt ≠ 0 then []
           else
             [[.number sgi.id.toNat, .text di.name, .text rpi.info.name,
               .text (P.time sgi.startTime), .text (P.time sgi.endTime),
               .text (P.time (sgi.endTime + rpi.info.duration))]] }]

/-- `executeShowSubscriptionsStatement`. -/
def showSubscriptions (dis : List DatabaseInfo) : List Row :=
  (dis.map fun di =>
    { name := di.name
      columns := ["retention_policy", "name", "mode", "destinations"]
      values := di.retentionPolicies.flatMap fun rpi =>
        rpi.subscriptions.map fun si =>
          [.text rpi.info.name, .text si.name, .text si.mode, .texts si.destinations] : Row }).filter
    fun row => row.values ≠ []

/-- `executeShowUsersStatement`. -/
def showUsers (users : List (String × Bool)) : List Row :=
  [{ name := "", columns := ["user", "admin"]
     values := users.map fun ui => [.text ui.1, .bool ui.2] }]

end Rows

/-! ## Statements and their plans -/

/-- What the emitter of a `SELECT` gives: the error of the calls before there is one; then its rows
    and errors, each with whether the interruption is seen when the row is sent; and whether it is
    seen at the end. -/
structure Emits where
  setup : Option String
  rows : List (Except String Row × Bool)
  interrupted : Bool
  deriving DecidableEq

/-- The statements; a `SELECT` with its target, if it has one. -/
inductive Statement (Src C : Type)
  | alterRetentionPolicy (database name : String) (update : PolicyUpdate) (default : Bool)
  | createContinuousQuery (database name query : String)
  | createDatabase (name : String) (ifNotExists : Bool) (policy : Option NewPolicy)
  | createRetentionPolicy (database : String) (policy : NewPolicy) (default : Bool)
  | createSubscription (database retentionPolicy name mode : String) (destinations : List String)
  | createUser (name password : String) (admin : Bool)
  | deleteSeries (sources : Src) (condition : C)
  | dropContinuousQuery (database name : String)
  | dropDatabase (name : String)
  | dropMeasurement (name : String)
  | dropSeries (sources : Src) (condition : C)
  | dropRetentionPolicy (database name : String)
  | dropShard (id : UInt64)
  | dropSubscription (database retentionPolicy name : String)
  | dropUser (name : String)
  | grant (user on : String) (privilege : Privilege)
  | grantAdmin (user : String)
  | revoke (user on : String) (privilege : Privilege)
  | revokeAdmin (user : String)
  | select (target : Option Target) (emits : Emits)
  | setPasswordUser (name password : String)
  | showing (s : Show)
  /-- Any other type of statement. -/
  | other

/-- What is done next: the calls that the code makes, by the answers to them.  A call that fails
    ends it with its error; `finish` sends a last result, and `quit` does not. -/
inductive Plan (Src C : Type)
  | finish (rows : List Row)
  | quit
  | fail (text : String)
  | send (row : Row) (next : Plan Src C)
  | change (c : MetaCall) (next : Plan Src C)
  | database (name : String) (next : Option DatabaseInfo → Plan Src C)
  | userPrivilege (user on : String) (next : Privilege → Plan Src C)
  | catalog (next : Catalog → Plan Src C)
  | delete (c : StoreCall Src C) (next : Plan Src C)
  | writeInto (target : Target) (row : Row) (next : Plan Src C)

/-- `influxql`, as far as conditions go: `now()` replaced by the time, and whether there is a time
    in a condition. -/
structure Influxql (C : Type) where
  reduce : C → C
  hasTimeExpr : C → Bool

section Plans

variable {Src C : Type} (P : Printer) (Q : Influxql C)

/-- Rows that may be an error. -/
def Plan.rows : Except String (List Row) → Plan Src C
  | .ok rows => .finish rows
  | .error text => .fail text

/-- `influxql.ErrDatabaseNotFound`. -/
def databaseNotFound (name : String) : String := "database not found: " ++ name

/-- `if dbi := e.MetaClient.Database(database); dbi == nil { … }`. -/
def Plan.requireDatabase (database : String) (next : Plan Src C) : Plan Src C :=
  .database database fun dbi =>
    match dbi with
    | none => .fail (databaseNotFound database)
    | some _ => next

/-- "If requested, set as default retention policy." -/
def Plan.setDefault (database name : String) (default : Bool) : Plan Src C :=
  if default then .change (.setDefaultRetentionPolicy database name) (.finish []) else .finish []

/-- `executeRevokeStatement`: revoking everything needs no look at what there is. -/
def executeRevokeStatement (user on : String) (privilege : Privilege) : Plan Src C :=
  if privilege ≠ allPrivileges then
    .userPrivilege user on fun p =>
      .change (.setPrivilege user on (p &&& ~~~privilege)) (.finish [])
  else .change (.setPrivilege user on noPrivileges) (.finish [])

/-- The result of a `SELECT` with a target. -/
def writtenRow (writeN : Int) : Row :=
  { name := "result", columns := ["time", "written"], values := [[.time 0, .number writeN]] }

/-- The loop of `executeSelectStatement` over the rows, and what comes after it. -/
def selectLoop (target : Option Target) (interrupted : Bool) :
    Int → Bool → List (Except String Row × Bool) → Plan Src C
  | writeN, emitted, [] =>
    if interrupted then .fail "query interrupted"
    else
      match target with
      | some _ => .finish [writtenRow writeN]
      -- always emit at least one result
      | none => if emitted then .quit else .finish []
  | _, _, (.error text, _) :: _ => .fail text
  | writeN, emitted, (.ok row, stopped) :: rows =>
    match target with
    | some target' =>
      .writeInto target' row
        (selectLoop target interrupted (int64 (writeN + row.values.length)) emitted rows)
    | none =>
      if stopped then .fail "query interrupted"
      else .send row (selectLoop target interrupted writeN true rows)

/-- `executeSelectStatement`. -/
def executeSelectStatement (target : Option Target) (emits : Emits) : Plan Src C :=
  match emits.setup with
  | some text => .fail text
  | none => selectLoop target emits.interrupted 0 false emits.rows

/-- The `SHOW` statements. -/
def Show.plan : Show → Plan Src C
  | .continuousQueries => .catalog fun v => .finish (showContinuousQueries v.databases)
  | .databases => .catalog fun v => .finish (showDatabases v.databases)
  | .diagnostics module => .catalog fun v => .rows (v.diagnostics.map (showDiagnostics module))
  | .grantsForUser name =>
    .catalog fun v => .rows ((v.userPrivileges name).map (showGrantsForUser P))
  | .retentionPolicies database =>
    .database database fun di =>
      match di with
      | none => .fail (databaseNotFound database)
      | some di => .finish (showRetentionPolicies P di)
  | .shards => .catalog fun v => .finish (showShards P v.databases)
  | .shardGroups => .catalog fun v => .finish (showShardGroups P v.databases)
  | .stats module => .catalog fun v => .rows (v.statistics.map (ofModule module))
  | .subscriptions => .catalog fun v => .finish (showSubscriptions v.databases)
  | .users => .catalog fun v => .finish (showUsers v.users)

/-- `ExecuteStatement`, for a query on this database. -/
def Statement.plan (database : String) : Statement Src C → Plan Src C
  | .alterRetentionPolicy db name update default =>
    .change (.updateRetentionPolicy db name update) (.setDefault db name default)
  | .createContinuousQuery db name query =>
    .change (.createContinuousQuery db name query) (.finish [])
  | .createDatabase name _ policy =>
    match policy with
    | none => .change (.createDatabase name) (.finish [])
    | some policy => .change (.createDatabaseWithRetentionPolicy name policy) (.finish [])
  | .createRetentionPolicy db policy default =>
    .change (.createRetentionPolicy db policy) (.setDefault db policy.name default)
  | .createSubscription db rp name mode destinations =>
    .change (.createSubscription db rp name mode destinations) (.finish [])
  | .createUser name password admin => .change (.createUser name password admin) (.finish [])
  | .deleteSeries sources condition =>
    -- convert "now()" to current time
    .requireDatabase database
      (.delete (.deleteSeries database sources (Q.reduce condition)) (.finish []))
  | .dropContinuousQuery db name => .change (.dropContinuousQuery db name) (.finish [])
  | .dropDatabase name =>
    .change (.dropDatabase name) (.delete (.deleteDatabase name) (.finish []))
  | .dropMeasurement name =>
    .requireDatabase database (.delete (.deleteMeasurement database name) (.finish []))
  | .dropSeries sources condition =>
    .requireDatabase database
      -- check for time in WHERE clause (not supported)
      (if Q.hasTimeExpr condition then .fail "DROP SERIES doesn't support time in WHERE clause"
        else .delete (.deleteSeries database sources condition) (.finish []))
  | .dropRetentionPolicy db name =>
    .change (.dropRetentionPolicy db name) (.delete (.deleteRetentionPolicy db name) (.finish []))
  | .dropShard id => .change (.dropShard id) (.delete (.deleteShard id) (.finish []))
  | .dropSubscription db rp name => .change (.dropSubscription db rp name) (.finish [])
  | .dropUser name => .change (.dropUser name) (.finish [])
  | .grant user on privilege => .change (.setPrivilege user on privilege) (.finish [])
  | .grantAdmin user => .change (.setAdminPrivilege user true) (.finish [])
  | .revoke user on privilege => executeRevokeStatement user on privilege
  | .revokeAdmin user => .change (.setAdminPrivilege user false) (.finish [])
  | .select target emits => executeSelectStatement target emits
  | .setPasswordUser name password => .change (.updateUser name password) (.finish [])
  | .showing s => s.plan P
  | .other => .fail "invalid query"

/-- A message beside the rows. -/
inductive Message
  /-- `influxql.ReadOnlyWarning`. -/
  | readOnly
  | warning (text : String)
  deriving DecidableEq

/-- The messages of a statement. -/
def Statement.messages (readOnly : Bool) : Statement Src C → List Message
  | .deleteSeries _ _ | .select none _ | .showing _ | .other => []
  | .createDatabase _ ifNotExists _ =>
    (if readOnly then [.readOnly] else []) ++
      if ifNotExists then
        [.warning "IF NOT EXISTS is deprecated as of v0.13.0 and will be removed in v1.0"]
      else []
  | _ => if readOnly then [.readOnly] else []

end Plans

/-! ## Statements that are executed at once -/

/-- A call that was made, and its error. -/
inductive Event (Src C : Type)
  | changed (c : MetaCall) (err : Option String)
  | looked (database : String) (found : Bool)
  | read
  | deleted (c : StoreCall Src C) (err : Option String)
  | written (target : Target) (row : Row) (err : Option String)

/-- What a statement sends to its client. -/
structure Result where
  rows : List Row
  messages : List Message

/-- A statement that is executed: what is left of its plan, its calls so far and the results that
    were sent, both the last one first, and how it has ended. -/
structure Session (Src C : Type) where
  readOnly : Bool
  stmt : Statement Src C
  plan : Plan Src C
  events : List (Event Src C)
  results : List Result
  ended : Option (Except String Unit)

/-- The meta client, the local store and the points writer, which creates groups and writes data; an
    error comes with its text. -/
structure Services (M T Src C : Type) where
  change : MetaCall → M → Option String × M
  database : M → String → Option DatabaseInfo
  userPrivilege : M → String → String → Except String Privilege
  catalog : M → Catalog
  delete : StoreCall Src C → T → Option String × T
  writeInto : Target → Row → M × T → Option String × M × T

/-- The metadata, the local data, and all statements. -/
structure State (M T Src C : Type) where
  metadata : M
  store : T
  sessions : List (Session Src C)

/-- A statement comes, or one of them makes its next call. -/
inductive Op (Src C : Type)
  | begin (database : String) (readOnly : Bool) (stmt : Statement Src C)
  | next (i : Nat)

section Sessions

variable {M T Src C : Type} (P : Printer) (Q : Influxql C) (svc : Services M T Src C)

/-- The statement ends. -/
def Session.endWith (s : Session Src C) (r : Except String Unit) : Session Src C :=
  { s with ended := some r }

/-- A result is sent. -/
def Session.send (s : Session Src C) (r : Result) : Session Src C :=
  { s with results := r :: s.results }

/-- After a call: the plan goes on, or the statement ends with the error. -/
def Session.after (s : Session Src C) (e : Event Src C) (err : Option String) (next : Plan Src C) :
    Session Src C :=
  match err with
  | none => { s with plan := next, events := e :: s.events }
  | some text => { s with events := e :: s.events, ended := some (.error text) }

/-- The next call of a statement. -/
def Session.next (m : M) (t : T) (s : Session Src C) : M × T × Session Src C :=
  match s.plan with
  | .finish rows =>
    (m, t, (s.send { rows := rows, messages := s.stmt.messages s.readOnly }).endWith (.ok ()))
  | .quit => (m, t, s.endWith (.ok ()))
  | .fail text => (m, t, s.endWith (.error text))
  | .send row next => (m, t, { s.send { rows := [row], messages := [] } with plan := next })
  | .change c next => ((svc.change c m).2, t, s.after (.changed c (svc.change c m).1)
      (svc.change c m).1 next)
  | .database name next =>
    (m, t, s.after (.looked name (svc.database m name).isSome) none (next (svc.database m name)))
  | .userPrivilege user on next =>
    match svc.userPrivilege m user on with
    | .ok p => (m, t, s.after .read none (next p))
    | .error text => (m, t, s.endWith (.error text))
  | .catalog next => (m, t, s.after .read none (next (svc.catalog m)))
  | .delete c next => (m, (svc.delete c t).2, s.after (.deleted c (svc.delete c t).1)
      (svc.delete c t).1 next)
  | .writeInto target row next =>
    ((svc.writeInto target row (m, t)).2.1, (svc.writeInto target row (m, t)).2.2,
      s.after (.written target row (svc.writeInto target row (m, t)).1)
        (svc.writeInto target row (m, t)).1 next)

/-- One step. -/
def Op.step (s : State M T Src C) : Op Src C → Option (State M T Src C)
  | .begin database readOnly stmt =>
    some { s with
      sessions := s.sessions ++ [{ readOnly := readOnly, stmt := stmt,
                                   plan := stmt.plan P Q database, events := [], results := [],
                                   ended := none }] }
  | .next i =>
    match s.sessions[i]? with
    | none => none
    | some session =>
      if session.ended.isSome then none
      else
        some { metadata := (session.next svc s.metadata s.store).1
               store := (session.next svc s.metadata s.store).2.1
               sessions := s.sessions.set i (session.next svc s.metadata s.store).2.2 }

/-! ## Deletions -/

variable {P Q svc}

/-- **The call that a deletion needs right before it**: the metadata has given up what is deleted, or
    has the database that it is deleted from. -/
def StoreCall.LicensedBy : StoreCall Src C → Event Src C → Prop
  | .deleteDatabase name, .changed (.dropDatabase name') none => name = name'
  | .deleteRetentionPolicy database name, .changed (.dropRetentionPolicy database' name') none =>
    database = database' ∧ name = name'
  | .deleteShard id, .changed (.dropShard id') none => id = id'
  | .deleteMeasurement database _, .looked database' true => database = database'
  | .deleteSeries database _ _, .looked database' true => database = database'
  | _, _ => False

/-- Every deletion has its license. -/
def Guarded : List (Event Src C) → Prop
  | [] => True
  | .deleted c _ :: rest => (∃ e ∈ rest.head?, c.LicensedBy e) ∧ Guarded rest
  | _ :: rest => Guarded rest

/-- Every deletion of the plan will have its license, if `last` was the last call. -/
def Plan.Licensed : Option (Event Src C) → Plan Src C → Prop
  | _, .finish _ | _, .quit | _, .fail _ => True
  | last, .send _ next => next.Licensed last
  | _, .change c next => next.Licensed (some (.changed c none))
  | _, .database name next => ∀ di, (next di).Licensed (some (.looked name di.isSome))
  | _, .userPrivilege _ _ next => ∀ p, (next p).Licensed (some .read)
  | _, .catalog next => ∀ v, (next v).Licensed (some .read)
  | last, .delete c next =>
    (∃ e ∈ last, c.LicensedBy e) ∧ next.Licensed (some (.deleted c none))
  | _, .writeInto target row next => next.Licensed (some (.written target row none))

/-- The plan changes nothing. -/
def Plan.ReadsOnly : Plan Src C → Prop
  | .finish _ | .quit | .fail _ => True
  | .change _ _ | .delete _ _ | .writeInto _ _ _ => False
  | .send _ next => next.ReadsOnly
  | .database _ next => ∀ di, (next di).ReadsOnly
  | .userPrivilege _ _ next => ∀ p, (next p).ReadsOnly
  | .catalog next => ∀ v, (next v).ReadsOnly

/-- A plan that ends well ends with a result that has the messages of the statement. -/
def Plan.Reports : Plan Src C → Prop
  | .finish _ | .fail _ => True
  | .quit => False
  | .send _ next | .change _ next | .delete _ next | .writeInto _ _ next => next.Reports
  | .database _ next => ∀ di, (next di).Reports
  | .userPrivilege _ _ next => ∀ p, (next p).Reports
  | .catalog next => ∀ v, (next v).Reports

/-- The call may have changed something. -/
def Event.Changes : Event Src C → Prop
  | .changed _ _ | .deleted _ _ | .written _ _ _ => True
  | .looked _ _ | .read => False

theorem Plan.licensed_setDefault (last : Option (Event Src C)) (database name : String)
    (default : Bool) : (Plan.setDefault database name default).Licensed last := by
  cases default <;> trivial

/-- A plan that looks for its database first. -/
theorem Plan.licensed_requireDatabase (last : Option (Event Src C)) {database : String}
    {next : Plan Src C} (h : next.Licensed (some (.looked database true))) :
    (Plan.requireDatabase database next).Licensed last := by
  intro di
  cases di with
  | none => trivial
  | some di => exact h

theorem Plan.readsOnly_rows (rows : Except String (List Row)) :
    (Plan.rows rows : Plan Src C).ReadsOnly := by
  cases rows <;> trivial

/-- The loop of a `SELECT` deletes nothing. -/
theorem licensed_selectLoop (target : Option Target) (interrupted : Bool) (writeN : Int)
    (emitted : Bool) (rows : List (Except String Row × Bool)) (last : Option (Event Src C)) :
    (selectLoop target interrupted writeN emitted rows : Plan Src C).Licensed last := by
  induction rows generalizing writeN emitted last with
  | nil => cases interrupted <;> cases target <;> cases emitted <;> trivial
  | cons turn rows ih =>
    obtain ⟨row, stopped⟩ := turn
    cases row with
    | error text => trivial
    | ok row =>
      cases target with
      | some target => exact ih _ _ _
      | none =>
        cases stopped with
        | false => exact ih _ _ last
        | true => trivial

/-- Without a target it writes nothing. -/
theorem readsOnly_selectLoop (interrupted : Bool) (writeN : Int) (emitted : Bool)
    (rows : List (Except String Row × Bool)) :
    (selectLoop none interrupted writeN emitted rows : Plan Src C).ReadsOnly := by
  induction rows generalizing emitted with
  | nil => cases interrupted <;> cases emitted <;> trivial
  | cons turn rows ih =>
    obtain ⟨row, stopped⟩ := turn
    cases row with
    | error text => trivial
    | ok row =>
      cases stopped with
      | false => exact ih true
      | true => trivial

/-- With a target it reports what it has written. -/
theorem reports_selectLoop (target : Target) (interrupted : Bool) (writeN : Int) (emitted : Bool)
    (rows : List (Except String Row × Bool)) :
    (selectLoop (some target) interrupted writeN emitted rows : Plan Src C).Reports := by
  induction rows generalizing writeN with
  | nil => cases interrupted <;> trivial
  | cons turn rows ih =>
    obtain ⟨row, stopped⟩ := turn
    cases row with
    | error text => trivial
    | ok row => exact ih _

theorem Show.readsOnly_plan (s : Show) : (s.plan P : Plan Src C).ReadsOnly := by
  cases s with
  | retentionPolicies database =>
    intro di
    cases di <;> trivial
  | diagnostics module | grantsForUser name | stats module => exact fun v => Plan.readsOnly_rows _
  | continuousQueries | databases | shards | shardGroups | subscriptions | users =>
    exact fun v => trivial

/-- What changes nothing needs no license. -/
theorem Plan.ReadsOnly.licensed {plan : Plan Src C} (h : plan.ReadsOnly)
    (last : Option (Event Src C)) : plan.Licensed last := by
  induction plan generalizing last with
  | finish rows => trivial
  | quit => trivial
  | fail text => trivial
  | send row next ih => exact ih h last
  | change c next => exact h.elim
  | delete c next => exact h.elim
  | writeInto target row next => exact h.elim
  | database name next ih => exact fun di => ih di (h di) _
  | userPrivilege user on next ih => exact fun p => ih p (h p) _
  | catalog next ih => exact fun v => ih v (h v) _

/-- **The plans of all statements are licensed.** -/
theorem Statement.licensed_plan (stmt : Statement Src C) (database : String) :
    (stmt.plan P Q database).Licensed none := by
  cases stmt with
  | alterRetentionPolicy db name update default => exact Plan.licensed_setDefault _ db name default
  | createRetentionPolicy db policy default =>
    exact Plan.licensed_setDefault _ db policy.name default
  | createDatabase name ifNotExists policy => cases policy <;> trivial
  | deleteSeries sources condition => exact Plan.licensed_requireDatabase _ ⟨⟨_, rfl, rfl⟩, trivial⟩
  | dropMeasurement name => exact Plan.licensed_requireDatabase _ ⟨⟨_, rfl, rfl⟩, trivial⟩
  | dropSeries sources condition =>
    refine Plan.licensed_requireDatabase _ ?_
    by_cases htime : Q.hasTimeExpr condition
    · rw [if_pos htime]
      trivial
    · rw [if_neg htime]
      exact ⟨⟨_, rfl, rfl⟩, trivial⟩
  | dropDatabase name => exact ⟨⟨_, rfl, rfl⟩, trivial⟩
  | dropRetentionPolicy db name => exact ⟨⟨_, rfl, rfl, rfl⟩, trivial⟩
  | dropShard id => exact ⟨⟨_, rfl, rfl⟩, trivial⟩
  | revoke user on privilege =>
    show (executeRevokeStatement user on privilege).Licensed none
    rw [executeRevokeStatement]
    split
    · exact fun p => trivial
    · trivial
  | select target emits =>
    show (executeSelectStatement target emits).Licensed none
    rw [executeSelectStatement]
    split
    · trivial
    · exact licensed_selectLoop target _ _ _ _ none
  | showing s => exact (Show.readsOnly_plan s).licensed none
  | createContinuousQuery db name query => trivial
  | createSubscription db rp name mode destinations => trivial
  | createUser name password admin => trivial
  | dropContinuousQuery db name => trivial
  | dropSubscription db rp name => trivial
  | dropUser name => trivial
  | grant user on privilege => trivial
  | grantAdmin user => trivial
  | revokeAdmin user => trivial
  | setPasswordUser name password => trivial
  | other => trivial

/-- The statement is `DELETE`. -/
def Statement.IsDelete : Statement Src C → Prop
  | .deleteSeries _ _ => True
  | _ => False

/-- The statement has no warning in a read-only query, and is not `DELETE`. -/
def Statement.Unwarned (stmt : Statement Src C) : Prop :=
  ¬ stmt.IsDelete ∧ .readOnly ∉ stmt.messages true

/-- **A statement without a warning changes nothing**, unless it is `DELETE`. -/
theorem Statement.Unwarned.readsOnly {stmt : Statement Src C} (h : stmt.Unwarned)
    (database : String) : (stmt.plan P Q database).ReadsOnly := by
  cases stmt with
  | deleteSeries sources condition => exact absurd trivial h.1
  | select target emits =>
    cases target with
    | some target => exact absurd List.mem_cons_self h.2
    | none =>
      show (executeSelectStatement none emits).ReadsOnly
      rw [executeSelectStatement]
      split
      · trivial
      · exact readsOnly_selectLoop _ _ _ _
  | showing s => exact Show.readsOnly_plan s
  | other => trivial
  | _ => exact absurd List.mem_cons_self h.2

/-- **A statement with a warning sends it at the end**, if it ends well. -/
theorem Statement.reports_plan {stmt : Statement Src C} (h : .readOnly ∈ stmt.messages true)
    (database : String) : (stmt.plan P Q database).Reports := by
  cases stmt with
  | deleteSeries sources condition => exact absurd h List.not_mem_nil
  | showing s => exact absurd h List.not_mem_nil
  | select target emits =>
    cases target with
    | none => exact absurd h List.not_mem_nil
    | some target =>
      show (executeSelectStatement (some target) emits).Reports
      rw [executeSelectStatement]
      split
      · trivial
      · exact reports_selectLoop target _ _ _ _
  | alterRetentionPolicy db name update default => cases default <;> trivial
  | createRetentionPolicy db policy default => cases default <;> trivial
  | createDatabase name ifNotExists policy => cases policy <;> trivial
  | revoke user on privilege =>
    show (executeRevokeStatement user on privilege).Reports
    rw [executeRevokeStatement]
    split
    · exact fun p => trivial
    · trivial
  | dropMeasurement name =>
    intro di
    cases di <;> trivial
  | dropSeries sources condition =>
    intro di
    cases di with
    | none => trivial
    | some di =>
      show (if Q.hasTimeExpr condition then _ else _ : Plan Src C).Reports
      split <;> trivial
  | _ => trivial

/-! ## All statements, all along -/

/-- **What holds of a statement all along.**  What is left of its plan has the licenses that it needs,
    by the last call; without a warning it has changed nothing and will not; and with one it ends
    with its messages, if it ends well. -/
structure Session.Guarded (s : Session Src C) : Prop where
  licensed : s.ended = none → s.plan.Licensed s.events.head?
  guarded : Statements.Guarded s.events
  readsOnly : s.stmt.Unwarned → s.ended = none → s.plan.ReadsOnly
  unchanged : s.stmt.Unwarned → ∀ e ∈ s.events, ¬ e.Changes
  reports : .readOnly ∈ s.stmt.messages true → s.ended = none → s.plan.Reports
  reported : .readOnly ∈ s.stmt.messages true → s.ended = some (.ok ()) →
    ∃ r ∈ s.results, r.messages = s.stmt.messages s.readOnly
  messages : ∀ r ∈ s.results, r.messages ⊆ s.stmt.messages s.readOnly

/-- A call that is no deletion, or has its license, and changes nothing unless it may. -/
theorem Session.Guarded.after {s : Session Src C} (h : s.Guarded) (hrun : s.ended = none)
    {e : Event Src C} {err : Option String} {next : Plan Src C}
    (hguard : Statements.Guarded (e :: s.events)) (hnext : err = none → next.Licensed (some e))
    (hreads : s.stmt.Unwarned → next.ReadsOnly) (he : s.stmt.Unwarned → ¬ e.Changes)
    (hreports : .readOnly ∈ s.stmt.messages true → next.Reports) :
    (s.after e err next).Guarded := by
  have hchanges : s.stmt.Unwarned → ∀ e' ∈ e :: s.events, ¬ e'.Changes :=
    fun hu => List.forall_mem_cons.mpr ⟨he hu, h.unchanged hu⟩
  cases err with
  | none =>
    refine ⟨fun _ => hnext rfl, hguard, fun hu _ => hreads hu, hchanges, fun hw _ => hreports hw,
      fun _ hok => ?_, h.messages⟩
    cases hrun.symm.trans hok
  | some text =>
    refine ⟨fun hnone => ?_, hguard, fun _ hnone => ?_, hchanges, fun _ hnone => ?_,
      fun _ hok => ?_, h.messages⟩
    · cases hnone
    · cases hnone
    · cases hnone
    · cases hok

/-- The end, with the messages of a statement that has any. -/
theorem Session.Guarded.endWith {s : Session Src C} (h : s.Guarded) {results : List Result}
    {r : Except String Unit}
    (hmessages : ∀ r ∈ results, r.messages ⊆ s.stmt.messages s.readOnly)
    (hr : .readOnly ∈ s.stmt.messages true → r = .ok () →
      ∃ r ∈ results, r.messages = s.stmt.messages s.readOnly) :
    ({ s with results := results, ended := some r } : Session Src C).Guarded := by
  refine ⟨fun hnone => ?_, h.guarded, fun _ hnone => ?_, h.unchanged, fun _ hnone => ?_,
    fun hw hok => hr hw (Option.some.inj hok), hmessages⟩
  · cases hnone
  · cases hnone
  · cases hnone

/-- **One call keeps it.** -/
theorem Session.Guarded.next {s : Session Src C} (h : s.Guarded) (hrun : s.ended = none) (m : M)
    (t : T) : (s.next svc m t).2.2.Guarded := by
  have hplan := h.licensed hrun
  have hreads := fun hu => h.readsOnly hu hrun
  have hreports := fun hw => h.reports hw hrun
  unfold Session.next
  cases hp : s.plan with
  | finish rows =>
    refine h.endWith (List.forall_mem_cons.mpr ⟨List.Subset.refl _, h.messages⟩) fun _ _ => ?_
    exact ⟨_, List.mem_cons_self, rfl⟩
  | quit =>
    rw [hp] at hreports
    exact h.endWith h.messages fun hw _ => (hreports hw).elim
  | fail text =>
    refine h.endWith h.messages fun _ hr => ?_
    cases hr
  | send row next =>
    rw [hp] at hplan hreads hreports
    refine ⟨fun _ => hplan, h.guarded, fun hu _ => hreads hu, h.unchanged, fun hw _ => hreports hw,
      fun _ hok => ?_, List.forall_mem_cons.mpr ⟨List.nil_subset _, h.messages⟩⟩
    cases hrun.symm.trans hok
  | change c next =>
    rw [hp] at hplan hreads hreports
    refine h.after hrun (e := .changed c _) h.guarded (fun herr => ?_) (fun hu => (hreads hu).elim)
      (fun hu => (hreads hu).elim) hreports
    rw [herr]
    exact hplan
  | database name next =>
    rw [hp] at hplan hreads hreports
    dsimp only
    exact h.after hrun h.guarded (fun _ => hplan _) (fun hu => hreads hu _) (fun _ he => he)
      fun hw => hreports hw _
  | userPrivilege user on next =>
    rw [hp] at hplan hreads hreports
    dsimp only
    cases svc.userPrivilege m user on with
    | error text =>
      refine h.endWith h.messages fun _ hr => ?_
      cases hr
    | ok p =>
      dsimp only
      exact h.after hrun h.guarded (fun _ => hplan p) (fun hu => hreads hu p) (fun _ he => he)
        fun hw => hreports hw p
  | catalog next =>
    rw [hp] at hplan hreads hreports
    dsimp only
    exact h.after hrun h.guarded (fun _ => hplan _) (fun hu => hreads hu _) (fun _ he => he)
      fun hw => hreports hw _
  | delete c next =>
    rw [hp] at hplan hreads hreports
    refine h.after hrun (e := .deleted c _) ⟨hplan.1, h.guarded⟩ (fun herr => ?_)
      (fun hu => (hreads hu).elim) (fun hu => (hreads hu).elim) hreports
    rw [herr]
    exact hplan.2
  | writeInto target row next =>
    rw [hp] at hplan hreads hreports
    refine h.after hrun (e := .written target row _) h.guarded (fun herr => ?_)
      (fun hu => (hreads hu).elim) (fun hu => (hreads hu).elim) hreports
    rw [herr]
    exact hplan

/-- The next call is one of a statement that has not ended. -/
theorem Op.step_next {s s' : State M T Src C} {i : Nat}
    (h : (Op.next i).step P Q svc s = some s') :
    ∃ x, s.sessions[i]? = some x ∧ x.ended = none ∧
      s' = { metadata := (x.next svc s.metadata s.store).1
             store := (x.next svc s.metadata s.store).2.1
             sessions := s.sessions.set i (x.next svc s.metadata s.store).2.2 } := by
  rw [Op.step] at h
  split at h
  · cases h
  · next x hi =>
    obtain ⟨hrun, h⟩ := Option.ite_none_left_eq_some.mp h
    cases h
    exact ⟨x, hi, Option.not_isSome_iff_eq_none.mp hrun, rfl⟩

theorem guarded_step {s s' : State M T Src C} (h : ∀ x ∈ s.sessions, x.Guarded) {op : Op Src C}
    (hstep : op.step P Q svc s = some s') : ∀ x ∈ s'.sessions, x.Guarded := by
  cases op with
  | begin database readOnly stmt =>
    cases hstep
    refine List.forall_mem_append.mpr ⟨h, List.forall_mem_singleton.mpr ?_⟩
    refine ⟨fun _ => stmt.licensed_plan database, trivial, fun hu _ => hu.readsOnly database,
      fun _ e he => absurd he List.not_mem_nil, fun hw _ => Statement.reports_plan hw database,
      fun _ hok => ?_, fun r hr => absurd hr List.not_mem_nil⟩
    cases hok
  | next i =>
    obtain ⟨x, hi, hrun, rfl⟩ := Op.step_next hstep
    intro y hmem
    rcases List.mem_or_eq_of_mem_set hmem with hmem | rfl
    · exact h y hmem
    · exact (h x (List.mem_of_getElem? hi)).next hrun s.metadata s.store

/-- `DELETE` has no warning to send. -/
theorem Statement.IsDelete.messages {stmt : Statement Src C} (h : stmt.IsDelete) (readOnly : Bool) :
    stmt.messages readOnly = [] := by
  cases stmt <;> first | rfl | exact h.elim

/-- **Statements are guarded.**  Whatever statements are executed at once, and however their calls
    interleave, fail and change what others find: a statement deletes data only right after its own
    call that gives it the license; a statement of a read-only query that has ended well and may
    have changed something has sent its warning, unless it is `DELETE`; and `DELETE` never sends
    one. -/
theorem statements_guarded (m : M) (t : T) {ops : List (Op Src C)} {s : State M T Src C}
    (hrun : ops.foldlM (Op.step P Q svc) { metadata := m, store := t, sessions := [] } = some s) :
    ∀ x ∈ s.sessions, Guarded x.events ∧
      (x.ended = some (.ok ()) → x.readOnly = true → (∃ e ∈ x.events, e.Changes) →
        x.stmt.IsDelete ∨ ∃ r ∈ x.results, .readOnly ∈ r.messages) ∧
      (x.stmt.IsDelete → ∀ r ∈ x.results, .readOnly ∉ r.messages) := by
  have hall : ∀ x ∈ s.sessions, x.Guarded :=
    foldlM_inv (J := fun s : State M T Src C => ∀ x ∈ s.sessions, x.Guarded)
      (fun _ _ _ h hstep => guarded_step h hstep) (fun x hx => absurd hx List.not_mem_nil) hrun
  intro x hx
  have hg := hall x hx
  refine ⟨hg.guarded, fun hended hreadOnly hchanges => ?_, fun hdelete r hr hwarned => ?_⟩
  · refine or_iff_not_imp_left.mpr fun hdelete => ?_
    have hw : .readOnly ∈ x.stmt.messages true := by
      by_contra hno
      obtain ⟨e, he, hc⟩ := hchanges
      exact hg.unchanged ⟨hdelete, hno⟩ e he hc
    obtain ⟨r, hr, hmessages⟩ := hg.reported hw hended
    rw [hreadOnly] at hmessages
    exact ⟨r, hr, hmessages ▸ hw⟩
  · have hmem := hg.messages r hr hwarned
    rw [hdelete.messages] at hmem
    exact absurd hmem List.not_mem_nil

end Sessions

/-- Texts that nobody looks at. -/
def plainPrinter : Printer :=
  { time := fun t => toString t, duration := fun d => toString d, privilege := fun _ => "" }

/-- Conditions that say nothing. -/
def noConditions : Influxql Unit := { reduce := id, hasTimeExpr := fun _ => false }

/-- A client and a store that do what they are asked for; the metadata are the names of the
    databases, and the data those that they are kept for. -/
def namesOnly : Services (List String) (List String) Unit Unit where
  change c m :=
    match c with
    | .createDatabase name => (none, name :: m)
    | .dropDatabase name => (none, m.erase name)
    | _ => (none, m)
  database m name :=
    if name ∈ m then
      some { name := name, defaultRetentionPolicy := "", retentionPolicies := [],
             continuousQueries := [] }
    else none
  userPrivilege _ _ _ := .ok 0
  catalog m :=
    { databases := m.map fun name => ⟨name, "", [], []⟩, users := [],
      userPrivileges := fun _ => .ok [], diagnostics := .ok [], statistics := .ok [] }
  delete c t :=
    match c with
    | .deleteDatabase name => (none, t.erase name)
    | _ => (none, t)
  writeInto target _ mt := (none, mt.1, target.database :: mt.2)

/-- `SELECT … INTO other`, with one row. -/
def selectIntoOther : Statement Unit Unit :=
  .select (some { database := "other", retentionPolicy := "", name := "" })
    { setup := none, rows := [(.ok ⟨"cpu", ["time"], [[.time 0]]⟩, false)], interrupted := false }

/-- `DROP DATABASE db`, `DELETE` and `SELECT … INTO other`, all in a read-only query. -/
def dropAndDelete : List (Op Unit Unit) :=
  [.begin "db" true (.dropDatabase "db"), .begin "db" true (.deleteSeries () ()),
    .begin "db" true selectIntoOther, .next 1, .next 0, .next 2, .next 0, .next 0, .next 1, .next 1,
    .next 2]

/-- The database is dropped and the row is written, both with a warning; the series are deleted
    without one, from a database that was there. -/
theorem guarded_dropAndDelete :
    ∃ s ∈ dropAndDelete.foldlM (Op.step plainPrinter noConditions namesOnly)
        { metadata := ["db"], store := ["db"], sessions := [] },
      s.metadata = [] ∧ s.store = ["other"] ∧
      s.sessions.map (fun x => x.results.map Result.messages) = [[[.readOnly]], [[]], [[.readOnly]]] ∧
      ∀ x ∈ s.sessions, Guarded x.events ∧
        (x.stmt.IsDelete → ∀ r ∈ x.results, .readOnly ∉ r.messages) := by
  have hrun : ∃ s ∈ dropAndDelete.foldlM (Op.step plainPrinter noConditions namesOnly)
      { metadata := ["db"], store := ["db"], sessions := [] },
      s.metadata = [] ∧ s.store = ["other"] ∧
      s.sessions.map (fun x => x.results.map Result.messages)
        = [[[.readOnly]], [[]], [[.readOnly]]] := by decide +kernel
  obtain ⟨s, hs, hmeta, hstore, hmessages⟩ := hrun
  refine ⟨s, hs, hmeta, hstore, hmessages, fun x hx => ?_⟩
  obtain ⟨hguarded, -, hdelete⟩ := statements_guarded ["db"] ["db"] hs x hx
  exact ⟨hguarded, hdelete⟩

/-! ## `SHOW SHARDS` and queries -/

section Shards

variable {X : Type} {E : Meta.EmbeddedGroups}
  {overlaps : Meta.ShardGroupInfo → Meta.Time → Meta.Time → Bool} {tmin tmax : Meta.Time}

/-- What a lookup finds is in a group of the metadata that is not deleted. -/
theorem live_of_selected {v : Meta.Copy X × Meta.Source} {x : Meta.Pointer × Meta.ShardInfo}
    (h : x ∈ Meta.selected E overlaps tmin tmax v) :
    ∃ m db rpi g, v.1.data.data = some m ∧ db ∈ m.databases ∧ rpi ∈ db.retentionPolicies ∧
      g ∈ rpi.shardGroups ∧ g.deletedAt = 0 ∧ x.2 ∈ g.shards := by
  obtain ⟨c, src⟩ := v
  cases src with
  | other => exact absurd h List.not_mem_nil
  | measurement database policy =>
    obtain ⟨m, rpi, i, j, g, k, hdata, hpolicy, hg, hlive, -, hx⟩ := Meta.mem_selected.mp h
    obtain ⟨db, hdb, hrp⟩ := Meta.getElem?_of_located hpolicy
    obtain ⟨-, -, -, -, hsh⟩ := Meta.mem_groupPointers.mp hx
    exact ⟨m, db, rpi, g, hdata, List.mem_of_getElem? hdb, List.mem_of_getElem? hrp,
      List.mem_of_getElem? hg, hlive, List.mem_of_getElem? hsh⟩

/-- A shard of a group that is not deleted is shown. -/
theorem mem_showShards (P : Printer) {dis : List DatabaseInfo} {di : DatabaseInfo} {rpi : PolicyInfo}
    {sgi : Meta.ShardGroupInfo} {si : Meta.ShardInfo} (hdi : di ∈ dis)
    (hrpi : rpi ∈ di.retentionPolicies) (hsgi : sgi ∈ rpi.info.shardGroups)
    (hlive : sgi.deletedAt = 0) (hsi : si ∈ sgi.shards) :
    ∃ row ∈ showShards P dis, row.name = di.name ∧ shardLine P di rpi.info sgi si ∈ row.values := by
  refine ⟨_, List.mem_map_of_mem hdi, rfl, ?_⟩
  refine List.mem_flatMap.mpr ⟨rpi, hrpi, List.mem_flatMap.mpr ⟨sgi, hsgi, ?_⟩⟩
  rw [if_neg (fun hdeleted => hdeleted hlive)]
  exact List.mem_map_of_mem hsi

/-- **`SHOW SHARDS` has every shard that a query is sent to**: whatever the metadata becomes while the
    sources of a query are looked up, each shard that `ShardsByTimeRange` returns is in the rows that
    `SHOW SHARDS` gives for the metadata that it was found in, with its identifier in front and its
    owners at the end. -/
theorem shown_of_queried (P : Printer) {order : List Meta.ShardInfo → List Meta.ShardInfo}
    (horder : ∀ l, (order l).Perm l) {c : Meta.Copy X} {turns : List (Meta.Turn X)}
    {a : List Meta.ShardInfo}
    (ha : Meta.shardsByTimeRange E overlaps order c turns tmin tmax = .ok a) {si : Meta.ShardInfo}
    (hsi : si ∈ a) :
    ∃ v ∈ Meta.views turns c, ∃ m, v.1.data.data = some m ∧
      ∀ dis : List DatabaseInfo, dis.map DatabaseInfo.info = m.databases →
        ∃ row ∈ showShards P dis, ∃ line ∈ row.values,
          line.head? = some (.number si.id.toNat) ∧
          line.getLast? = some (.text (joinUint64 (si.owners.map Meta.ShardOwner.nodeID))) := by
  rw [Meta.shardsByTimeRange] at ha
  split at ha
  · cases ha
  · next pointers hpointers =>
    cases ha
    have hcollects := Meta.collects_lookupSources turns c [] Meta.collects_nil hpointers
    obtain ⟨⟨p, sh⟩, hentry, rfl⟩ := List.mem_map.mp ((horder _).mem_iff.mp hsi)
    obtain ⟨v, hv, hselected⟩ := hcollects.found p sh (AList.mem_lookup_iff.mpr hentry)
    obtain ⟨m, db, rpi, g, hdata, hdb, hrpi, hg, hlive, hsh⟩ := live_of_selected hselected
    refine ⟨v, hv, m, hdata, fun dis hdis => ?_⟩
    -- the database and the policy, with what else the client has of them
    rw [← hdis] at hdb
    obtain ⟨di, hdi, rfl⟩ := List.mem_map.mp hdb
    obtain ⟨policy, hpolicy, rfl⟩ := List.mem_map.mp hrpi
    obtain ⟨row, hrow, -, hline⟩ := mem_showShards P hdi hpolicy hg hlive hsh
    exact ⟨row, hrow, _, hline, rfl, rfl⟩

end Shards

/-- The shards of a group, which a query is sent to, are shown. -/
theorem shown_of_queried_oneGroup :
    ∃ a, Meta.shardsByTimeRange Meta.findAndSort Meta.overlapsRange id ⟨0, Meta.oneGroup⟩
        [([], .measurement "db" "rp")] 3 5 = .ok a ∧ ⟨1, []⟩ ∈ a ∧
      ∃ v ∈ Meta.views [([], .measurement "db" "rp")] (⟨0, Meta.oneGroup⟩ : Meta.Copy Unit), ∃ m,
        v.1.data.data = some m ∧ ∀ dis : List DatabaseInfo,
          dis.map DatabaseInfo.info = m.databases → ∃ row ∈ showShards plainPrinter dis,
            ∃ line ∈ row.values, line.head? = some (.number 1) ∧
              line.getLast? = some (.text (joinUint64 [])) := by
  have hone : (⟨1, []⟩ : Meta.ShardInfo) ∈ [⟨2, []⟩, (⟨1, []⟩ : Meta.ShardInfo)] := by decide
  have hqueried : Meta.shardsByTimeRange Meta.findAndSort Meta.overlapsRange id ⟨0, Meta.oneGroup⟩
      [([], .measurement "db" "rp")] 3 5 = .ok [⟨2, []⟩, ⟨1, []⟩] := rfl
  exact ⟨_, hqueried, hone, shown_of_queried plainPrinter (fun _ => .rfl) hqueried hone⟩

end InfluxCluster.Cluster.Statements
