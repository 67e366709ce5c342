/-
  Is `Data.Clone` a copy (`meta/data.go`)?

  Of everything but the users it is.  `CloneUsers` makes a slice of the right LENGTH, and the loop
  that should fill it is commented out: in place of each user there is a zero one, without a name,
  without a hash and not an admin.

  Clone is the first step of nearly every command of the state machine, and what the command puts in
  place is the clone.  So whatever a command is about, the roles stay and the users stay or become
  zero ones (`Kept`, for every handler but that of `SetDataCommand`, which does not clone).  Zero
  users are all that survives (`clone_faithful_iff`).

  The same holds of what `store.snapshot` serves, and of `Client.CreateUser`, which looks for the
  user in a clone.
-/
import InfluxCluster.Meta.Poison

namespace InfluxCluster.Meta

open InfluxCluster.Lib

/-- The zero `UserInfo`. -/
def UserInfo.zero : UserInfo := { name := "", hash := "", admin := false }

section Clone

variable {X : Type}

/-! ## The clone -/

/-- **A clone is a copy of data whose users are zero ones.** -/
theorem clone_eq_self_iff (d : Data X) :
    d.clone = some d ↔ d.data.isSome ∧ ∀ u ∈ d.users, u = UserInfo.zero := by
  have hcloned : d.cloned = d ↔ ∀ u ∈ d.users, u = UserInfo.zero := by
    have husers : d.users = d.cloneUsers ↔ ∀ u ∈ d.users, UserInfo.zero = u := eq_map_iff
    constructor
    · intro h u hu
      exact (husers.mp (congrArg Data.users h).symm u hu).symm
    · intro h
      rw [Data.cloned, ← husers.mpr fun u hu => (h u hu).symm]
  rw [Data.clone, ← hcloned]
  cases d.data with
  | none => simp
  | some m => simp

/-! ## What a command leaves of the users -/

variable {us : List UserInfo} {rs : List RoleInfo}

/-- The roles are there, and so are the users, or as many zero ones. -/
def Kept (us : List UserInfo) (rs : List RoleInfo) (d : Data X) : Prop :=
  d.roles = rs ∧ (d.users = us ∨ d.users = us.map fun _ => UserInfo.zero)

/-- The program keeps what is kept, in the data and in the copy that it makes. -/
abbrev KeepsInCopy (us : List UserInfo) (rs : List RoleInfo) (x : FsmM X (Data X)) : Prop :=
  Triple (Kept us rs) x (fun other d => Kept us rs other ∧ Kept us rs d) (fun _ => Kept us rs)

/-- Only users and roles are looked at. -/
theorem Kept.congr {d d' : Data X} (h : Kept us rs d) (husers : d'.users = d.users)
    (hroles : d'.roles = d.roles) : Kept us rs d' := by
  rw [Kept, husers, hroles]
  exact h

/-- A copy is as faithful as what it is a copy of. -/
theorem Kept.cloned {d : Data X} (h : Kept us rs d) : Kept us rs d.cloned := by
  obtain ⟨hroles, husers⟩ := h
  refine ⟨hroles, Or.inr ?_⟩
  show d.users.map _ = _
  rcases husers with hsame | hzero
  · rw [hsame]
    rfl
  · rw [hzero, List.map_map]
    rfl

theorem keeps_set {other : Data X} (h : Kept us rs other) :
    Keeps (Kept us rs) (set other : FsmM X Unit) := fun _ _ => h

theorem keepsInCopy_cloneData : KeepsInCopy us rs (cloneData : FsmM X (Data X)) := by
  intro d hd
  cases hm : d.data with
  | none =>
    rw [cloneData_panics hm]
    exact hd
  | some m =>
    rw [cloneData_ok (Option.isSome_of_eq_some hm)]
    exact ⟨hd.cloned, hd⟩

/-- The package has no access to users and roles of the cluster data. -/
theorem keepsInCopy_callEmbedded {other : Data X} (h : Kept us rs other)
    (op : MetaData X → Except String (MetaData X)) : KeepsInCopy us rs (callEmbedded op other) := by
  intro d hd
  rw [callEmbedded]
  cases other.data with
  | none => exact hd
  | some m =>
    dsimp only
    cases op m with
    | error text => exact hd
    | ok m' => exact ⟨h.congr rfl rfl, hd⟩

theorem keepsInCopy_orConflict {x : FsmM X (Data X)} (h : KeepsInCopy us rs x) :
    KeepsInCopy us rs (orConflict x) := by
  intro d hd
  have hx := h d hd
  rw [orConflict]
  rcases hr : x d with ⟨other, d'⟩ | ⟨e, d'⟩
  · rw [hr] at hx
    exact hx
  · rw [hr] at hx
    -- one error is replaced by another, with the same data
    rcases e with e | _
    · cases e <;> exact hx
    · exact hx

/-- After a copy was made, the rest of the handler works on it. -/
theorem Keeps.of_copy {x : FsmM X (Data X)} {f : Data X → FsmM X Unit} (hx : KeepsInCopy us rs x)
    (hf : ∀ other, Kept us rs other → Keeps (Kept us rs) (f other)) :
    Keeps (Kept us rs) (x >>= f) :=
  Triple.bind hx fun other => Triple.of_and (hf other)

/-- A handler behind its type assertion. -/
theorem keeps_asserting {α : Type} {ext : Ext α} {f : α → FsmM X Unit}
    (hf : ∀ v, Keeps (Kept us rs) (f v)) : Keeps (Kept us rs) (assertExt ext >>= f) := by
  cases ext with
  | absent | malformed => exact fun _ hd => hd
  | present v => exact hf v

/-- A handler that takes its command and works on a clone. -/
theorem keeps_on_clone {α : Type} {ext : Ext α} {f : α → Data X → FsmM X Unit}
    (hf : ∀ v other, Kept us rs other → Keeps (Kept us rs) (f v other)) :
    Keeps (Kept us rs) (assertExt ext >>= fun v => cloneData >>= f v) :=
  keeps_asserting fun v => Keeps.of_copy keepsInCopy_cloneData (hf v)

/-- The end of a handler. -/
theorem keeps_setOrReturn {r : Except MetaErr (Data X)}
    (h : ∀ other, r = .ok other → Kept us rs other) : Keeps (Kept us rs) (setOrReturn r) := by
  cases r with
  | error e => exact keeps_throw (Stop.err e)
  | ok other => exact keeps_set (h other rfl)

/-! ## Each handler -/

variable (P : Protobuf) (emb : Embedded X) (config : MetaConfig) (env : Env) (cmd : Command)

/-- What a guarded change leaves, if it is made. -/
theorem ok_of_guard {c : Prop} [Decidable c] {e : MetaErr} {d₁ d' : Data X}
    (h : (if c then .error e else .ok d₁) = Except.ok d') : d' = d₁ := by
  split at h
  · cases h
  · cases h
    rfl

theorem Kept.ignoringErr {other : Data X} {r : Except MetaErr (Data X)} (h : Kept us rs other)
    (hr : ∀ other', r = .ok other' → Kept us rs other') : Kept us rs (other.ignoringErr r) := by
  cases r with
  | error e => exact h
  | ok other' => exact hr other' rfl

theorem keeps_applyClone : Keeps (Kept us rs) (applyClone : FsmM X Unit) :=
  Keeps.of_copy keepsInCopy_cloneData fun _ h => keeps_set h

theorem keeps_applyEmbedded {α : Type} (ext : Ext α)
    (op : α → MetaData X → Except String (MetaData X)) :
    Keeps (Kept us rs) (applyEmbedded ext op) := by
  apply keeps_on_clone
  intro v other ho
  exact Keeps.of_copy (keepsInCopy_callEmbedded ho (op v)) fun _ h => keeps_set h

theorem keepsInCopy_createDefaultPolicy {v : CreateDatabaseCommand} {other : Data X}
    (ho : Kept us rs other) : KeepsInCopy us rs (createDefaultPolicy emb config v other) := by
  rw [createDefaultPolicy]
  cases emb.unmarshalRetentionPolicy v.retentionPolicy with
  | some rpi => exact keepsInCopy_orConflict (keepsInCopy_callEmbedded ho _)
  | none =>
    dsimp only
    by_cases ha : config.retentionAutoCreate
    · rw [if_pos ha]
      exact keepsInCopy_callEmbedded ho _
    · rw [if_neg ha]
      exact fun _ hd => ⟨ho, hd⟩

theorem keeps_createDatabase : Keeps (Kept us rs) (applyCreateDatabaseCommand emb config cmd) := by
  apply keeps_on_clone
  intro v other ho
  apply Keeps.of_copy (keepsInCopy_callEmbedded ho _)
  intro other ho
  apply Keeps.of_copy (keepsInCopy_createDefaultPolicy emb config ho)
  intro other ho
  exact keeps_set ho

theorem keeps_removePeer : Keeps (Kept us rs) (applyRemovePeerCommand env cmd : FsmM X Unit) := by
  apply keeps_asserting
  intro v
  cases env.isLeader with
  | true => exact keeps_pure ()
  | false => exact keeps_pure ()

theorem keeps_createMetaNode : Keeps (Kept us rs) (applyCreateMetaNodeCommand cmd : FsmM X Unit) := by
  apply keeps_on_clone
  intro v other ho
  have hi : Kept us rs (other.ignoringErr (other.createMetaNode v.httpAddr v.tcpAddr)) := by
    apply ho.ignoringErr
    intro other' hr
    rw [ok_of_guard hr]
    exact ho.congr rfl rfl
  exact keeps_set (hi.congr rfl rfl)

theorem keeps_setMetaNode : Keeps (Kept us rs) (applySetMetaNodeCommand cmd : FsmM X Unit) := by
  apply keeps_on_clone
  intro v other ho
  have hs : Kept us rs (other.defaultClusterID v.rand) := ho.congr rfl rfl
  dsimp only
  cases (other.defaultClusterID v.rand).data with
  | none => exact keeps_throw _
  | some m =>
    refine keeps_set (hs.ignoringErr ?_)
    intro other' hr
    rw [ok_of_guard hr]
    exact hs.congr rfl rfl

theorem keeps_deleteMetaNode :
    Keeps (Kept us rs) (applyDeleteMetaNodeCommand env cmd : FsmM X Unit) := by
  apply keeps_on_clone
  intro v other ho
  have hdel : Keeps (Kept us rs) (setOrReturn (other.deleteMetaNode v.id env.now)) := by
    apply keeps_setOrReturn
    intro other' hr
    rw [ok_of_guard hr]
    exact ho.congr rfl rfl
  rcases other.metaNode v.id with _ | node
  · exact keeps_throw _
  · dsimp only
    rcases env.leave node with _ | _ | text
    · exact hdel
    · exact hdel
    · exact keeps_throw _

theorem keeps_deleteDataNode : Keeps (Kept us rs) (applyDeleteDataNodeCommand cmd : FsmM X Unit) := by
  apply keeps_on_clone
  intro v other ho
  apply keeps_setOrReturn
  intro other' hr
  rw [ok_of_guard hr]
  exact ho.congr rfl rfl

/-- **Every command but `SetDataCommand`** keeps the roles, and the users or as many zero ones. -/
theorem keeps_dispatch (h : cmd.type ≠ .setData) :
    Keeps (Kept us rs) (dispatch P emb config env cmd) := by
  rw [dispatch]
  cases ht : cmd.type with
  | removePeer => exact keeps_removePeer env cmd
  | createDatabase => exact keeps_createDatabase emb config cmd
  | setData => exact absurd ht h
  | createMetaNode => exact keeps_createMetaNode cmd
  | deleteMetaNode => exact keeps_deleteMetaNode env cmd
  | setMetaNode => exact keeps_setMetaNode cmd
  | deleteDataNode => exact keeps_deleteDataNode cmd
  | createRetentionPolicy | setDefaultRetentionPolicy | createDataNode => exact keeps_applyClone
  | addShardOwner => exact keeps_pure ()
  | dropDatabase | dropRetentionPolicy | updateRetentionPolicy | createShardGroup
  | deleteShardGroup | createContinuousQuery | dropContinuousQuery | createSubscription
  | dropSubscription | createUser | dropUser | updateUser | setPrivilege | setAdminPrivilege =>
    exact keeps_applyEmbedded _ _
  | _ => exact keeps_throw _

/-! ## A run of the log -/

variable (C : CommandCodec)

/-- An entry of the log, and what the replica sees when it applies it. -/
structure LogEntry where
  log : Log
  env : Env

/-- The data that a replica is left with; `none` once it has panicked. -/
def applyLog (entries : List LogEntry) (d : Data X) : Option (Data X) :=
  entries.foldlM (fun d e => outcome (apply P emb config e.env C e.log d)) d

/-- The command of the entry works on a clone, or on nothing. -/
def WorksOnClone (e : LogEntry) : Prop := ∀ cmd, C e.log.data = .ok cmd → cmd.type ≠ .setData

/-- **One entry** of the log that works on a clone. -/
theorem Kept.apply {d d' : Data X} (h : Kept us rs d) {e : LogEntry} (he : WorksOnClone C e)
    (hd' : outcome (apply P emb config e.env C e.log d) = some d') : Kept us rs d' := by
  rw [Meta.apply] at hd'
  cases hc : C e.log.data with
  | error text =>
    rw [hc] at hd'
    cases hd'
  | ok cmd =>
    rw [hc] at hd'
    dsimp only at hd'
    rw [outcome_settle, Option.bind_eq_some_iff] at hd'
    obtain ⟨d₁, hd₁, hstamp⟩ := hd'
    -- the switch keeps it, and stamping the data does
    have hkept := keeps_iff.mp (keeps_dispatch P emb config e.env cmd (he cmd hc)) d h
    rw [final_of_outcome hd₁] at hkept
    rw [Data.stamp] at hstamp
    split at hstamp
    · cases hstamp
    · cases hstamp
      exact hkept.congr rfl rfl

/-- **A log of them.** -/
theorem Kept.applyLog {entries : List LogEntry} {d d' : Data X} (h : Kept us rs d)
    (hentries : ∀ e ∈ entries, WorksOnClone C e)
    (hd' : Meta.applyLog P emb config C entries d = some d') : Kept us rs d' := by
  induction entries generalizing d with
  | nil =>
    cases hd'
    exact h
  | cons e entries ih =>
    rw [Meta.applyLog, List.foldlM_cons] at hd'
    obtain ⟨d₁, hd₁, hrest⟩ := Option.bind_eq_some_iff.mp hd'
    exact ih (h.apply P emb config C (hentries e List.mem_cons_self) hd₁)
      (fun e' he' => hentries e' (List.mem_cons_of_mem e he')) hrest

/-- **Clone is faithful**: it gives the data itself, and no run of commands that work on clones
    changes the users or the roles. -/
def CloneFaithful (d : Data X) : Prop :=
  d.clone = some d ∧
    ∀ entries d', (∀ e ∈ entries, WorksOnClone C e) →
      applyLog P emb config C entries d = some d' → d'.users = d.users ∧ d'.roles = d.roles

/-- **Clone is faithful to data that has no users but zero ones.** -/
theorem clone_faithful_iff (d : Data X) :
    CloneFaithful P emb config C d ↔ d.data.isSome ∧ ∀ u ∈ d.users, u = UserInfo.zero := by
  constructor
  · rintro ⟨hclone, -⟩
    exact (clone_eq_self_iff d).mp hclone
  · intro h
    refine ⟨(clone_eq_self_iff d).mpr h, ?_⟩
    intro entries d' hentries hd'
    have hkept : Kept d.users d.roles d := ⟨rfl, Or.inl rfl⟩
    obtain ⟨hroles, husers⟩ := hkept.applyLog P emb config C hentries hd'
    refine ⟨?_, hroles⟩
    rcases husers with hsame | hzero
    · exact hsame
    · -- the users have become zero ones, and were
      rw [hzero]
      exact (eq_map_iff.mpr fun u hu => (h.2 u hu).symm).symm

end Clone

/-- A store with one user and one role. -/
def aliceAndOps : Data Unit :=
  { (newStoreData () : Data Unit) with
    users := [{ name := "alice", hash := "hash1", admin := true }]
    roles := [{ users := [{ name := "alice", hash := "hash1", admin := true }] }] }

/-- A data node is created; the handler puts the clone in place. -/
def dataNodeEntry : LogEntry :=
  { log := { term := 1, index := 2, data := [8, 27] }
    env := alone }

/-- The codec, for that command. -/
def dataNodeCodec : CommandCodec := fun _ => .ok { type := .createDataNode }

/-- **A data node is created, and alice is nobody.** -/
theorem data_node_wipes_users :
    WorksOnClone dataNodeCodec dataNodeEntry ∧
      (∃ d', applyLog Protobuf.idle Embedded.idle ⟨false⟩ dataNodeCodec [dataNodeEntry] aliceAndOps
          = some d' ∧ d'.users = [UserInfo.zero]) ∧
      ¬ CloneFaithful Protobuf.idle Embedded.idle ⟨false⟩ dataNodeCodec aliceAndOps := by
  have hworks : WorksOnClone dataNodeCodec dataNodeEntry := by
    intro cmd hcmd
    cases hcmd
    decide
  refine ⟨hworks, ⟨_, rfl, rfl⟩, ?_⟩
  rintro ⟨hclone, -⟩
  have husers := congrArg (Option.map Data.users) hclone
  revert husers
  decide

end InfluxCluster.Meta
