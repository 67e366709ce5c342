/-
  The commands that this repository sends to its own state machine (`meta/client.go`,
  `meta/store.go`).

  Every method of the client that changes metadata sends ONE kind of command, with the extension
  that belongs to it; and so do the methods of the store.  What `Apply` answers is `Answerable`.
  Put together: three of the methods take the cluster down, and no other does.

  *  `Client.SetData` drops the error of `MarshalBinary`, which always has one, and sends what is
     there beside it: nothing, or a message without the largest identifier, which is required.
  *  `store.updateDataNode` and `store.removeShard` send commands that the switch of `Apply` does
     not know.

  So a log of such commands is applied to its end, on every replica and whatever it sees of its
  surroundings, exactly if none of these is among them (`own_traffic_applied_iff`).
-/
import InfluxCluster.Meta.Agreement
import InfluxCluster.Meta.CommandWire
import InfluxCluster.Meta.Exec
import InfluxCluster.Meta.Poison
import InfluxCluster.Meta.Users

namespace InfluxCluster.Meta

open InfluxCluster.Lib

/-- A call of a method that sends a command, once it does; of `SetData` with the payload that it
    sends. -/
inductive Request (X : Type)
  | createDataNode (httpAddr tcpAddr : String)
  | deleteDataNode (id : UInt64)
  | updateDataNode (id : UInt64) (host tcpHost : String)
  | removeShard (dst : String) (shardID : UInt64)
  | createMetaNode (httpAddr tcpAddr : String) (rand : UInt64)
  | deleteMetaNode (id : UInt64)
  | createDatabase (name : String)
  | createDatabaseWithRetentionPolicy (name : String) (rpi : Bytes)
  | dropDatabase (name : String)
  | createRetentionPolicy (database : String) (rpi : Bytes)
  | dropRetentionPolicy (database name : String)
  | setDefaultRetentionPolicy (database name : String)
  | updateRetentionPolicy (database name : String) (rpu : RetentionPolicyUpdate)
  | createShardGroup (database policy : String) (timestamp : Int)
  | deleteShardGroup (database policy : String) (id : UInt64)
  | user (c : UserCommand)
  | setPrivilege (username database : String) (p : Int)
  | createContinuousQuery (database name query : String)
  | dropContinuousQuery (database name : String)
  | createSubscription (database rp name mode : String) (destinations : List String)
  | dropSubscription (database rp name : String)
  | setData (data : Data X) (payload : Bytes)

section Traffic

variable {X : Type} (P : Protobuf) (emb : Embedded X) (config : MetaConfig) (C : CommandCodec)

/-- The command.  Three of the extensions are not read by `Apply`, and two belong to commands that it
    does not know. -/
def Request.command : Request X → Command
  | .createDataNode _ _ => { type := .createDataNode }
  | .deleteDataNode id => { type := .deleteDataNode, deleteDataNode := .present { id := id } }
  | .updateDataNode _ _ _ => { type := .updateDataNode }
  | .removeShard _ _ => { type := .dropShard }
  | .createMetaNode httpAddr tcpAddr rand =>
    { type := .createMetaNode
      createMetaNode := .present { httpAddr := httpAddr, tcpAddr := tcpAddr, rand := rand } }
  | .deleteMetaNode id => { type := .deleteMetaNode, deleteMetaNode := .present { id := id } }
  | .createDatabase name =>
    { type := .createDatabase, createDatabase := .present { name := name, retentionPolicy := [] } }
  | .createDatabaseWithRetentionPolicy name rpi =>
    { type := .createDatabase, createDatabase := .present { name := name, retentionPolicy := rpi } }
  | .dropDatabase name => { type := .dropDatabase, dropDatabase := .present { name := name } }
  | .createRetentionPolicy _ _ => { type := .createRetentionPolicy }
  | .dropRetentionPolicy database name =>
    { type := .dropRetentionPolicy
      dropRetentionPolicy := .present { database := database, name := name } }
  | .setDefaultRetentionPolicy _ _ => { type := .setDefaultRetentionPolicy }
  | .updateRetentionPolicy database name rpu =>
    (Meta.updateRetentionPolicy database name rpu).command
  | .createShardGroup database policy timestamp =>
    { type := .createShardGroup
      createShardGroup := .present
        { database := database, policy := policy, timestamp := timestamp } }
  | .deleteShardGroup database policy id =>
    { type := .deleteShardGroup
      deleteShardGroup := .present { database := database, policy := policy, shardGroupID := id } }
  | .user c => c.command
  | .setPrivilege username database p =>
    { type := .setPrivilege
      setPrivilege := .present { username := username, database := database, privilege := p } }
  | .createContinuousQuery database name query =>
    { type := .createContinuousQuery
      createContinuousQuery := .present { database := database, name := name, query := query } }
  | .dropContinuousQuery database name =>
    { type := .dropContinuousQuery
      dropContinuousQuery := .present { database := database, name := name } }
  | .createSubscription database rp name mode destinations =>
    { type := .createSubscription
      createSubscription := .present
        { name := name, database := database, retentionPolicy := rp, mode := mode,
          destinations := destinations } }
  | .dropSubscription database rp name =>
    { type := .dropSubscription
      dropSubscription := .present { name := name, database := database, retentionPolicy := rp } }
  | .setData _ payload => { type := .setData, setData := .present { data := payload } }

/-- The payload of `SetData` is what `MarshalBinary` gives beside its error. -/
def Request.Genuine : Request X → Prop
  | .setData data payload =>
    payload = [] ∨ ∃ m, data.data = some m ∧ payload = P.encode (data.marshal emb.toEmbeddedCodec m)
  | _ => True

/-- The three methods whose commands `Apply` panics over. -/
def Request.Fatal : Request X → Prop
  | .setData _ _ | .updateDataNode _ _ _ | .removeShard _ _ => True
  | _ => False

instance : (r : Request X) → Decidable r.Fatal
  | .setData _ _ | .updateDataNode _ _ _ | .removeShard _ _ => instDecidableTrue
  | .createDataNode _ _ | .deleteDataNode _ | .createMetaNode _ _ _ | .deleteMetaNode _
  | .createDatabase _ | .createDatabaseWithRetentionPolicy _ _ | .dropDatabase _
  | .createRetentionPolicy _ _ | .dropRetentionPolicy _ _ | .setDefaultRetentionPolicy _ _
  | .updateRetentionPolicy _ _ _ | .createShardGroup _ _ _ | .deleteShardGroup _ _ _ | .user _
  | .setPrivilege _ _ _ | .createContinuousQuery _ _ _ | .dropContinuousQuery _ _
  | .createSubscription _ _ _ _ _ | .dropSubscription _ _ _ => instDecidableFalse

variable {P emb config C}

/-- **Which methods send what `Apply` answers**, for a protobuf that wants the required fields of
    `ClusterData`. -/
theorem Request.answerable_iff (hP : P.Strict) {r : Request X} (hr : r.Genuine P emb) :
    Answerable P r.command ↔ ¬ r.Fatal := by
  cases r with
  | setData data payload =>
    refine iff_of_false ?_ fun h => h trivial
    rintro ⟨v, hv, hdecode⟩
    cases hv
    obtain rfl | ⟨m, -, rfl⟩ := hr
    · rw [hP.nothing] at hdecode
      cases hdecode
    · -- `marshal` never sets the largest identifier
      rw [hP.incomplete _ rfl] at hdecode
      cases hdecode
  | updateDataNode _ _ _ => exact iff_of_false (fun h => h) fun h => h trivial
  | removeShard _ _ => exact iff_of_false (fun h => h) fun h => h trivial
  | user c => cases c <;> exact iff_of_true trivial id
  | _ => exact iff_of_true trivial id

/-- An entry of the log, the request that it comes from, and what a replica sees when it applies
    it. -/
structure Sent (X : Type) where
  request : Request X
  log : Log
  env : Env

/-- **One entry**: it is applied exactly if it is not fatal, and then the store goes on. -/
theorem applied_isSome_iff (hP : P.Strict) {d : Data X} (hd : HasData d) {e : Sent X}
    (he : C e.log.data = .ok e.request.command) (hr : e.request.Genuine P emb) :
    (applied P emb config C e.env e.log d).isSome ↔ ¬ e.request.Fatal := by
  rw [applied, outcome_isSome_iff, apply, he]
  dsimp only
  rw [settle_returns_iff, answers_dispatch P emb config e.env _ hd, Request.answerable_iff hP hr]

theorem hasData_of_applied {d d' : Data X} {env : Env} {l : Log} {cmd : Command}
    (hc : C l.data = .ok cmd) (h : applied P emb config C env l d = some d') : HasData d' := by
  rw [applied_eq P emb config C hc] at h
  obtain ⟨d₁, -, hstamp⟩ := Option.bind_eq_some_iff.mp h
  exact hasData_of_stamp hstamp

/-- **The own traffic takes the store down exactly by these three methods.**  A running store applies
    a log of commands that the methods of the client and of the store have sent to its end, whatever
    the replica sees meanwhile, if and only if none of them comes from `Client.SetData`, from
    `store.updateDataNode` or from `store.removeShard`. -/
theorem own_traffic_applied_iff (hP : P.Strict) {rest : X} {d : Data X}
    (hd : StoreReachable P emb config C rest d) {entries : List (Sent X)}
    (hsent : ∀ e ∈ entries, C e.log.data = .ok e.request.command ∧ e.request.Genuine P emb) :
    (entries.foldlM (fun d e => applied P emb config C e.env e.log d) d).isSome
      ↔ ∀ e ∈ entries, ¬ e.request.Fatal := by
  have hdata := hd.hasData
  clear hd
  induction entries generalizing d with
  | nil => exact iff_of_true rfl fun e he => absurd he List.not_mem_nil
  | cons e entries ih =>
    obtain ⟨he, hrest⟩ := List.forall_mem_cons.mp hsent
    have hfirst : (applied P emb config C e.env e.log d).isSome ↔ ¬ e.request.Fatal :=
      applied_isSome_iff hP hdata he.1 he.2
    rw [List.foldlM_cons, List.forall_mem_cons]
    cases happlied : applied P emb config C e.env e.log d with
    | none =>
      rw [happlied] at hfirst
      exact iff_of_false Bool.false_ne_true fun h => Bool.false_ne_true (hfirst.mpr h.1)
    | some d' =>
      rw [happlied] at hfirst
      refine (ih hrest (hasData_of_applied he.1 happlied)).trans ?_
      exact ⟨fun h => ⟨hfirst.mp rfl, h⟩, And.right⟩

end Traffic

/-- A database is dropped, and then a client sets the data. -/
def dropThenSetData : List (Sent Unit) :=
  [⟨.dropDatabase "db", { term := 1, index := 2, data := dropBody }, alone⟩,
    ⟨.setData (newStoreData ()) [10, 0],
      { term := 1, index := 3, data := [8, 21, 202, 7, 4, 10, 2, 10, 0] }, alone⟩]

theorem own_traffic_dropThenSetData :
    (∀ e ∈ dropThenSetData, unmarshalCommand e.log.data = .ok e.request.command) ∧
    ((dropThenSetData.foldlM (fun d e =>
        applied clusterProto Embedded.idle ⟨false⟩ unmarshalCommand e.env e.log d)
          (newStoreData ())).isSome ↔ ∀ e ∈ dropThenSetData, ¬ e.request.Fatal) ∧
    ¬ ∀ e ∈ dropThenSetData, ¬ e.request.Fatal := by
  have hread : ∀ e ∈ dropThenSetData, unmarshalCommand e.log.data = .ok e.request.command := by
    intro e he
    rcases List.mem_cons.mp he with rfl | he
    · decide +kernel
    · rcases List.mem_singleton.mp he with rfl
      decide +kernel
  have hgenuine : ∀ e ∈ dropThenSetData, e.request.Genuine clusterProto Embedded.idle := by
    intro e he
    rcases List.mem_cons.mp he with rfl | he
    · trivial
    · rcases List.mem_singleton.mp he with rfl
      -- the bytes of a message with empty embedded data and nothing else
      exact .inr ⟨_, rfl, by decide +kernel⟩
  exact ⟨hread, own_traffic_applied_iff clusterProto_strict .new
    fun e he => ⟨hread e he, hgenuine e he⟩, by decide +kernel⟩

end InfluxCluster.Meta
