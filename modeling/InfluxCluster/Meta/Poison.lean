/-
  Which commands take the meta store down?

  `serveExec` hands a request to raft once `validateCommand` has accepted it, and that only looks at
  whether the OUTER message decodes.  `Apply` wants more: a type that its switch knows, the
  extension of that type, and for `SetDataCommand` a payload that decodes.  What it does not get it
  panics over, on every replica and again whenever the log is replayed.

  `Answerable` is the condition, by the type of the command.  A store that still has its embedded
  data answers exactly these (`answers_dispatch`), and every store that is running has it
  (`StoreReachable.hasData`).

  The handlers' part is a matter of TRIPLES: from data that is in place, each step of a handler
  after the type assertion neither panics nor loses the data.
-/
import InfluxCluster.Meta.CommandWire
import InfluxCluster.Meta.StoreFSM

namespace InfluxCluster.Meta

open InfluxCluster.Lib

/-! ## Requests -/

/-- `validateCommand`. -/
def validateCommand (C : CommandCodec) (b : Bytes) : Except String Unit :=
  match C b with
  | .error err => .error ("unable to unmarshal command: " ++ err)
  | .ok _ => .ok ()

/-- **The commands that `Apply` answers**: the type has a case in the switch, and the extension that
    the case asserts is there; the payload of `SetDataCommand` decodes.  Four cases assert
    nothing. -/
def Answerable (P : Protobuf) (cmd : Command) : Prop :=
  match cmd.type with
  | .removePeer => cmd.removePeer.IsPresent
  | .createDatabase => cmd.createDatabase.IsPresent
  | .dropDatabase => cmd.dropDatabase.IsPresent
  | .dropRetentionPolicy => cmd.dropRetentionPolicy.IsPresent
  | .updateRetentionPolicy => cmd.updateRetentionPolicy.IsPresent
  | .createShardGroup => cmd.createShardGroup.IsPresent
  | .deleteShardGroup => cmd.deleteShardGroup.IsPresent
  | .createContinuousQuery => cmd.createContinuousQuery.IsPresent
  | .dropContinuousQuery => cmd.dropContinuousQuery.IsPresent
  | .createSubscription => cmd.createSubscription.IsPresent
  | .dropSubscription => cmd.dropSubscription.IsPresent
  | .createUser => cmd.createUser.IsPresent
  | .dropUser => cmd.dropUser.IsPresent
  | .updateUser => cmd.updateUser.IsPresent
  | .setPrivilege => cmd.setPrivilege.IsPresent
  | .setAdminPrivilege => cmd.setAdminPrivilege.IsPresent
  | .createMetaNode => cmd.createMetaNode.IsPresent
  | .deleteMetaNode => cmd.deleteMetaNode.IsPresent
  | .setMetaNode => cmd.setMetaNode.IsPresent
  | .deleteDataNode => cmd.deleteDataNode.IsPresent
  | .setData => ∃ v, cmd.setData = .present v ∧ (P.decode v.data).isSome
  | .createRetentionPolicy | .setDefaultRetentionPolicy | .createDataNode | .addShardOwner => True
  | _ => False

/-! ## Handlers that answer -/

section Answers

variable {X α : Type}

/-- The embedded data is in place. -/
def HasData (d : Data X) : Prop := d.data.isSome

/-- An error that is returned, with the data in place. -/
def ErrWithData (e : Stop) (d : Data X) : Prop := e ≠ .panicked ∧ HasData d

/-- From data in place, the program returns, with or without an error, and the data is still in
    place. -/
abbrev Returns (x : FsmM X Unit) : Prop := Triple HasData x (fun _ => HasData) ErrWithData

/-- As `Returns`, for a program that makes a copy of the data. -/
abbrev Copies (x : FsmM X (Data X)) : Prop :=
  Triple HasData x (fun other d => HasData other ∧ HasData d) ErrWithData

theorem returns_pure : Returns (pure () : FsmM X Unit) := fun _ hd => hd

theorem returns_throw (e : MetaErr) : Returns (throw (.err e) : FsmM X Unit) :=
  fun _ hd => ⟨Stop.noConfusion, hd⟩

theorem returns_set {other : Data X} (h : HasData other) : Returns (set other : FsmM X Unit) :=
  fun _ _ => h

theorem copies_pure {other : Data X} (h : HasData other) : Copies (pure other) :=
  fun _ hd => ⟨h, hd⟩

/-- The copy is of what is there. -/
theorem copies_cloneData : Copies (cloneData : FsmM X (Data X)) := by
  intro d hd
  rw [cloneData_ok hd]
  exact ⟨hd, hd⟩

/-- A method of the package gives data, or an error. -/
theorem copies_callEmbedded {other : Data X} (h : HasData other)
    (op : MetaData X → Except String (MetaData X)) : Copies (callEmbedded op other) := by
  obtain ⟨m, hm⟩ := Option.isSome_iff_exists.mp h
  intro d hd
  rcases ho : op m with text | m'
  · rw [callEmbedded_error other hm ho d]
    exact ⟨Stop.noConfusion, hd⟩
  · rw [callEmbedded_ok other hm ho d]
    exact ⟨rfl, hd⟩

/-- Also with the error replaced. -/
theorem copies_orConflict {x : FsmM X (Data X)} (h : Copies x) : Copies (orConflict x) := by
  intro d hd
  have hx := h d hd
  rw [orConflict]
  rcases hr : x d with ⟨other, d'⟩ | ⟨e, d'⟩
  · rw [hr] at hx
    exact hx
  · rw [hr] at hx
    -- one error is replaced by another, and a panic by nothing
    rcases e with e | _
    · cases e <;> exact ⟨Stop.noConfusion, hx.2⟩
    · exact hx

/-- After a copy was made, the rest of the handler works on it. -/
theorem Returns.of_copy {x : FsmM X (Data X)} {f : Data X → FsmM X Unit} (hx : Copies x)
    (hf : ∀ other, HasData other → Returns (f other)) : Returns (x >>= f) :=
  Triple.bind hx fun other => Triple.of_and (hf other)

/-- A handler that only clones returns. -/
theorem returns_applyClone : Returns (applyClone : FsmM X Unit) :=
  Returns.of_copy copies_cloneData fun _ h => returns_set h

/-- The handler answers: it does not panic, and leaves the data in place. -/
def Answers (x : FsmM X Unit) (d : Data X) : Prop :=
  Lib.failure (x d) ≠ some .panicked ∧ HasData (final (x d))

/-- Who returns with data answers. -/
theorem answers_of_returns {x : FsmM X Unit} (h : Returns x) {d : Data X} (hd : HasData d) :
    Answers x d := by
  have hx := h d hd
  rw [Answers]
  rcases hr : x d with ⟨a, d'⟩ | ⟨e, d'⟩
  · rw [hr] at hx
    exact ⟨(Option.some_ne_none _).symm, hx⟩
  · rw [hr] at hx
    refine ⟨?_, hx.2⟩
    rw [Lib.failure, Ne, Option.some.injEq]
    exact hx.1

/-- A handler that asserts an extension first answers exactly if it is there. -/
theorem answers_asserting {ext : Ext α} {f : α → FsmM X Unit} (hf : ∀ v, Returns (f v))
    {d : Data X} (hd : HasData d) : Answers (assertExt ext >>= f) d ↔ ext.IsPresent := by
  cases ext with
  | absent | malformed => exact ⟨fun h => absurd rfl h.1, fun h => h.elim⟩
  | present v =>
    refine ⟨fun _ => trivial, fun _ => ?_⟩
    exact answers_of_returns (hf v) hd

/-! ## Each handler -/

variable (P : Protobuf) (emb : Embedded X) (config : MetaConfig) (env : Env) (cmd : Command)
  {d : Data X}

/-- A handler that hands over to the package panics only over its extension. -/
theorem answers_applyEmbedded (ext : Ext α) (op : α → MetaData X → Except String (MetaData X))
    (hd : HasData d) : Answers (applyEmbedded ext op) d ↔ ext.IsPresent := by
  refine answers_asserting (fun v => ?_) hd
  apply Returns.of_copy copies_cloneData
  intro other ho
  exact Returns.of_copy (copies_callEmbedded ho (op v)) fun _ h => returns_set h

/-- The default policy is made by the package as well. -/
theorem copies_createDefaultPolicy {v : CreateDatabaseCommand} {other : Data X}
    (ho : HasData other) : Copies (createDefaultPolicy emb config v other) := by
  rw [createDefaultPolicy]
  cases emb.unmarshalRetentionPolicy v.retentionPolicy with
  | some rpi => exact copies_orConflict (copies_callEmbedded ho _)
  | none =>
    dsimp only
    by_cases ha : config.retentionAutoCreate
    · rw [if_pos ha]
      exact copies_callEmbedded ho _
    · rw [if_neg ha]
      exact copies_pure ho

theorem answers_createDatabase (hd : HasData d) :
    Answers (applyCreateDatabaseCommand emb config cmd) d ↔ cmd.createDatabase.IsPresent := by
  refine answers_asserting (fun v => ?_) hd
  apply Returns.of_copy copies_cloneData
  intro other ho
  apply Returns.of_copy (copies_callEmbedded ho _)
  intro other ho
  apply Returns.of_copy (copies_createDefaultPolicy emb config ho)
  intro other ho
  exact returns_set ho

theorem answers_removePeer (hd : HasData d) :
    Answers (applyRemovePeerCommand env cmd) d ↔ cmd.removePeer.IsPresent := by
  refine answers_asserting (fun v => ?_) hd
  cases env.isLeader with
  | true => exact returns_pure
  | false => exact returns_pure

/-- A dropped error does not lose the data. -/
theorem hasData_ignoringErr {other : Data X} {r : Except MetaErr (Data X)} (ho : HasData other)
    (h : ∀ other', r = .ok other' → other'.data = other.data) : HasData (other.ignoringErr r) := by
  rcases r with e | other'
  · exact ho
  · rw [HasData, Data.ignoringErr, h other' rfl]
    exact ho

/-- Nor does a new cluster identifier. -/
theorem hasData_defaultClusterID {other : Data X} (ho : HasData other) (rand : UInt64) :
    HasData (other.defaultClusterID rand) := by
  rw [HasData, Data.defaultClusterID, Option.isSome_map]
  exact ho

theorem answers_createMetaNode (hd : HasData d) :
    Answers (applyCreateMetaNodeCommand cmd) d ↔ cmd.createMetaNode.IsPresent := by
  refine answers_asserting (fun v => ?_) hd
  apply Returns.of_copy copies_cloneData
  intro other ho
  have hi := hasData_ignoringErr (r := other.createMetaNode v.httpAddr v.tcpAddr) ho
    fun _ h => Data.data_createMetaNode h
  exact returns_set (hasData_defaultClusterID hi v.rand)

theorem answers_setMetaNode (hd : HasData d) :
    Answers (applySetMetaNodeCommand cmd) d ↔ cmd.setMetaNode.IsPresent := by
  refine answers_asserting (fun v => ?_) hd
  apply Returns.of_copy copies_cloneData
  intro other ho
  have hs := hasData_defaultClusterID ho v.rand
  obtain ⟨m, hm⟩ := Option.isSome_iff_exists.mp hs
  dsimp only
  rw [hm]
  exact returns_set (hasData_ignoringErr hs fun _ h => Data.data_setMetaNode h)

/-- The end of a handler: set, or return the error. -/
theorem returns_setOrReturn {r : Except MetaErr (Data X)} (h : ∀ other, r = .ok other → HasData other) :
    Returns (setOrReturn r) := by
  rcases r with e | other
  · exact returns_throw e
  · exact returns_set (h other rfl)

theorem answers_deleteMetaNode (hd : HasData d) :
    Answers (applyDeleteMetaNodeCommand env cmd) d ↔ cmd.deleteMetaNode.IsPresent := by
  refine answers_asserting (fun v => ?_) hd
  apply Returns.of_copy copies_cloneData
  intro other ho
  have hdel : Returns (setOrReturn (other.deleteMetaNode v.id env.now)) := by
    apply returns_setOrReturn
    intro other' hr
    rw [HasData, Data.isSome_deleteMetaNode hr]
    exact ho
  -- the node is not found, or leaving succeeds, is not asked for, or fails
  rcases other.metaNode v.id with _ | node
  · exact returns_throw _
  · dsimp only
    rcases env.leave node with _ | _ | text
    · exact hdel
    · exact hdel
    · exact returns_throw _

theorem answers_deleteDataNode (hd : HasData d) :
    Answers (applyDeleteDataNodeCommand cmd) d ↔ cmd.deleteDataNode.IsPresent := by
  refine answers_asserting (fun v => ?_) hd
  apply Returns.of_copy copies_cloneData
  intro other ho
  apply returns_setOrReturn
  intro other' hr
  rw [HasData, Data.data_deleteDataNode hr]
  exact ho

/-- `SetDataCommand` is different: the data it leaves is that of the payload, or none. -/
theorem answers_setData :
    Answers (applySetDataCommand P emb cmd) d
      ↔ ∃ v, cmd.setData = .present v ∧ (P.decode v.data).isSome := by
  rw [applySetDataCommand]
  cases hv : cmd.setData with
  | absent | malformed =>
    constructor
    · rintro ⟨h, -⟩
      exact absurd rfl h
    · rintro ⟨v, h, -⟩
      cases h
  | present v =>
    rw [Answers, bind_ok (assertExt_present v d), Data.unmarshalBinary]
    rcases hp : P.decode v.data with _ | pb
    · constructor
      · rintro ⟨-, h⟩
        cases h
      · rintro ⟨v', ⟨⟩, h⟩
        rw [hp] at h
        cases h
    · constructor
      · rintro -
        exact ⟨v, rfl, by rw [hp]; rfl⟩
      · rintro -
        refine ⟨?_, rfl⟩
        intro h
        cases h

/-- **The switch answers exactly the answerable commands.** -/
theorem answers_dispatch (hd : HasData d) :
    Answers (dispatch P emb config env cmd) d ↔ Answerable P cmd := by
  have hclone : Answers (applyClone : FsmM X Unit) d ↔ True :=
    iff_of_true (answers_of_returns returns_applyClone hd) trivial
  rw [dispatch, Answerable]
  -- one case per type, as in the source; the types of the last case have none there
  cases cmd.type with
  | removePeer => exact answers_removePeer env cmd hd
  | createDatabase => exact answers_createDatabase emb config cmd hd
  | setData => exact answers_setData P emb cmd
  | createMetaNode => exact answers_createMetaNode cmd hd
  | deleteMetaNode => exact answers_deleteMetaNode env cmd hd
  | setMetaNode => exact answers_setMetaNode cmd hd
  | deleteDataNode => exact answers_deleteDataNode cmd hd
  | createRetentionPolicy | setDefaultRetentionPolicy | createDataNode => exact hclone
  | addShardOwner => exact iff_of_true (answers_of_returns returns_pure hd) trivial
  | dropDatabase | dropRetentionPolicy | updateRetentionPolicy | createShardGroup
  | deleteShardGroup | createContinuousQuery | dropContinuousQuery | createSubscription
  | dropSubscription | createUser | dropUser | updateUser | setPrivilege | setAdminPrivilege =>
    exact answers_applyEmbedded _ _ hd
  | _ => exact iff_of_false (fun h => h.1 rfl) id

/-! ## `Apply` -/

/-- The store goes on exactly if the handler has not panicked. -/
theorem outcome_isSome_iff (r : EStateM.Result Stop (Data X) Unit) :
    (outcome r).isSome ↔ Lib.failure r ≠ some .panicked := by
  rcases r with ⟨a, d⟩ | ⟨e | _, d⟩
  · exact iff_of_true rfl (Option.some_ne_none _).symm
  · refine iff_of_true rfl ?_
    intro h
    cases h
  · exact iff_of_false Bool.false_ne_true (fun h => h rfl)

/-- It goes on from where the handler left it. -/
theorem final_of_outcome {r : EStateM.Result Stop (Data X) Unit} {d : Data X}
    (h : outcome r = some d) : final r = d := by
  rcases r with ⟨a, d'⟩ | ⟨e | _, d'⟩ <;> cases h
  · rfl
  · rfl

/-- Term and index are written into the embedded data, which must be there. -/
theorem stamp_isSome_iff (l : Log) (d : Data X) : (d.stamp l).isSome ↔ HasData d := by
  rw [Data.stamp, HasData]
  cases d.data with
  | none => exact Iff.rfl
  | some m => exact iff_of_true rfl rfl

theorem hasData_of_stamp {l : Log} {d d' : Data X} (h : d.stamp l = some d') : HasData d' := by
  rw [Data.stamp] at h
  split at h
  · cases h
  · cases h
    rfl

/-- After the switch `Apply` panics once more if the data is gone. -/
theorem settle_returns_iff (l : Log) (x : FsmM X Unit) (d : Data X) :
    Lib.failure (settle l (x d)) ≠ some .panicked ↔ Answers x d := by
  rw [← outcome_isSome_iff, outcome_settle, Answers, ← outcome_isSome_iff]
  rcases ho : outcome (x d) with _ | d'
  · exact iff_of_false Bool.false_ne_true (fun h => Bool.false_ne_true h.1)
  · rw [final_of_outcome ho, Option.bind_some, stamp_isSome_iff]
    exact ⟨fun h => ⟨rfl, h⟩, And.right⟩

/-- What a handler leaves can be stamped, if nothing panicked. -/
theorem hasData_settle {l : Log} {r : EStateM.Result Stop (Data X) Unit}
    (h : Lib.failure (settle l r) ≠ some .panicked) : HasData (final (settle l r)) := by
  obtain ⟨d', hd'⟩ := Option.isSome_iff_exists.mp ((outcome_isSome_iff _).mpr h)
  rw [final_of_outcome hd']
  rw [outcome_settle] at hd'
  obtain ⟨d₁, -, hstamp⟩ := Option.bind_eq_some_iff.mp hd'
  exact hasData_of_stamp hstamp

/-- The data of a store that is running: a new one, or one that has applied an entry without a panic
    or restored a snapshot. -/
inductive StoreReachable (C : CommandCodec) (rest : X) : Data X → Prop
  | new : StoreReachable C rest (newStoreData rest)
  | apply {d : Data X} (h : StoreReachable C rest d) (env : Env) (l : Log)
      (hr : Lib.failure (apply P emb config env C l d) ≠ some .panicked) :
      StoreReachable C rest (final (apply P emb config env C l d))
  | restore {d d' : Data X} {r : Except String Bytes} (h : StoreReachable C rest d)
      (hr : restore P emb.toEmbeddedCodec r d = .ok () d') : StoreReachable C rest d'

/-- A store that is running has its embedded data. -/
theorem StoreReachable.hasData {C : CommandCodec} {rest : X}
    (h : StoreReachable P emb config C rest d) : HasData d := by
  induction h with
  | new => rfl
  | restore _ hr _ => exact (restore_forgets P emb.toEmbeddedCodec hr).2.2.2
  | @apply d _ env l hr _ =>
    rw [Meta.apply] at hr ⊢
    rcases hc : C l.data with err | cmd
    · rw [hc] at hr
      exact absurd rfl hr
    · rw [hc] at hr
      exact hasData_settle hr

/-- **`Apply` of an accepted request returns exactly if the command is answerable.** -/
theorem apply_returns_iff {C : CommandCodec} {rest : X} (hd : StoreReachable P emb config C rest d)
    {l : Log} (hv : validateCommand C l.data = .ok ()) :
    Lib.failure (apply P emb config env C l d) ≠ some .panicked
      ↔ ∃ cmd, C l.data = .ok cmd ∧ Answerable P cmd := by
  rw [apply]
  rcases hc : C l.data with err | cmd
  · rw [validateCommand, hc] at hv
    cases hv
  · dsimp only
    rw [settle_returns_iff, answers_dispatch P emb config env cmd hd.hasData]
    constructor
    · intro h
      exact ⟨cmd, rfl, h⟩
    · rintro ⟨cmd', ⟨⟩, h⟩
      exact h

end Answers

/-- The state of a replica that is no leader and has no peers. -/
def alone : Env where
  isLeader := false
  peers := .ok []
  raftRemovePeer _ := none
  now := 0

/-- The body of a request that drops the database `db`. -/
def dropBody : Bytes := [8, 2, 178, 6, 4, 10, 2, 100, 98]

/-- A database is dropped in a new store. -/
theorem apply_returns_dropDatabase :
    Lib.failure (apply Protobuf.idle Embedded.idle ⟨false⟩ alone unmarshalCommand
        { term := 1, index := 2, data := dropBody } (newStoreData ())) ≠ some .panicked :=
  (apply_returns_iff Protobuf.idle Embedded.idle ⟨false⟩ alone .new (by decide +kernel)).mpr
    ⟨{ type := .dropDatabase, dropDatabase := .present { name := "db" } }, by decide +kernel, trivial⟩

/-- A request with this body is accepted, and a new store panics over it. -/
def TakesDown (body : Bytes) : Prop :=
  validateCommand unmarshalCommand body = .ok () ∧
    Lib.failure (apply clusterProto Embedded.idle ⟨false⟩ alone unmarshalCommand
      { term := 1, index := 2, data := body } (newStoreData ())) = some .panicked

instance (body : Bytes) : Decidable (TakesDown body) :=
  inferInstanceAs (Decidable (_ ∧ _))

/-- The command by which the store itself updates a data node, a command without its extension, and
    a payload that does not decode. -/
theorem three_poison_commands :
    TakesDown [8, 28, 130, 8, 8, 8, 1, 18, 1, 104, 26, 1, 116] ∧ TakesDown [8, 1] ∧
    TakesDown [8, 21, 202, 7, 2, 10, 0] := by
  decide +kernel

end InfluxCluster.Meta
