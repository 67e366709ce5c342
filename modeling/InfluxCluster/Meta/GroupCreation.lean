/-
  `Client.CreateShardGroup` (`meta/client.go`): does a nil error mean that there is a group?

  The call looks for the group in the client's copy of the metadata, has the command executed, waits
  for its index, and then reads the copy AGAIN.  `MapShards` and `PrecreateShardGroups` use the
  group that it returns without a look at it.  But the second reading is not of the data that the
  command has left:

  * the copy that the wait was for may be LATER, and another client's `DeleteShardGroup` in between;
  * the copy may have been replaced after the wait by an EARLIER one, from a server that is behind;
  * a client that is closed does not wait, and nothing was executed (`exec_nil_iff`);
  * a time that is not one of an int64 of nanoseconds arrives as another one.

  In all of them the lookup finds nothing, and the call returns neither a group nor an error.
  Without them it returns a group that contains the time (`created_group_is_there`).

  THE SERVERS are one log of commands.  `versions` are the metadata after each entry, the newest
  first.  An answer that says success has an index that is not before an entry with the command, and
  a refresh of the client's copy may be any of the versions.  As the code is no snapshot can be
  written (`marshalBinary_fails`), and no copy is ever refreshed; this is about what comes after
  that is mended.
-/
import InfluxCluster.Lib.Lockstep
import InfluxCluster.Meta.Agreement
import InfluxCluster.Meta.CommandWire
import InfluxCluster.Meta.Exec
import InfluxCluster.Meta.LongPoll
import InfluxCluster.Meta.ShardGroups

namespace InfluxCluster.Meta

open InfluxCluster.Lib

/-! ## The call -/

/-- `timestamp.UnixNano()`, an int64. -/
def toUnixNano (timestamp : Int) : Int := (timestamp - 62135596800 * 10 ^ 9).bmod (2 ^ 64)

/-- The time is one of an int64 of nanoseconds. -/
def InRange (timestamp : Int) : Prop :=
  -2 ^ 63 ≤ timestamp - 62135596800 * 10 ^ 9 ∧ timestamp - 62135596800 * 10 ^ 9 < 2 ^ 63

instance (timestamp : Int) : Decidable (InRange timestamp) := inferInstanceAs (Decidable (_ ∧ _))

/-- The errors of the call. -/
inductive CreateErr
  | exec (err : ExecErr)
  | retentionPolicy (err : MetaErr)
  /-- "retention policy deleted after shard group created". -/
  | policyDeleted
  deriving DecidableEq

/-- Where the call is: before its first lookup, in `retryUntilExec` or before the second lookup, or
    at its end. -/
inductive CreatePC
  | begun
  | executing
  | returned (group : Option ShardGroupInfo) (err : Option CreateErr)
  | panicked
  deriving DecidableEq

/-- What a call is given, and what it finds. -/
structure Creating (X : Type) where
  P : Protobuf
  emb : Embedded X
  config : MetaConfig
  C : CommandCodec
  E : EmbeddedGroups
  database : String
  policy : String
  timestamp : Time

/-- A call, the versions of the metadata, and the indexes at which its command was executed. -/
structure Creation (X : Type) where
  exec : Exec X
  pc : CreatePC
  versions : List (Data X)
  executed : List UInt64

/-- The call or its client takes a step; an entry of the log is applied, of whichever client; the
    copy of the client is refreshed. -/
inductive CreateOp (X : Type)
  | first
  | exec (op : ExecOp X)
  | second
  | commit (env : Env) (l : Log)
  | refresh (version : Nat)

section Call

variable {X : Type}

/-- The policy, if it is there. -/
def MetaData.policy? (m : MetaData X) (E : EmbeddedGroups) (database policy : String) :
    Option RetentionPolicyInfo :=
  match m.retentionPolicy E database policy with
  | .ok rpi => rpi
  | .error _ => none

/-- `data.Data.ShardGroupByTimestamp`, without its error. -/
def MetaData.shardGroupByTimestamp (E : EmbeddedGroups) (m : MetaData X) (database policy : String)
    (timestamp : Time) : Option ShardGroupInfo :=
  (m.policy? E database policy).bind fun rpi => E.shardGroupByTimestamp rpi timestamp

/-- The command of the call. -/
def Creating.command (K : Creating X) : Command :=
  { type := .createShardGroup
    createShardGroup := .present {
      database := K.database, policy := K.policy, timestamp := toUnixNano K.timestamp } }

/-- The entry has the command. -/
def Creating.Ours (K : Creating X) (l : Log) : Bool :=
  match K.C l.data with
  | .ok cmd => cmd = K.command
  | .error _ => false

/-- Whether the step can be one of the call: new data comes as a refresh, and success is answered
    with an index that is not before an entry with the command. -/
def Creation.allows (s : Creation X) : ExecOp X → Bool
  | .install _ => false
  | .answer a =>
    match Meta.exec a with
    | .ok index => s.executed.any (· ≤ index)
    | .error _ => true
  | _ => true

/-- The second lookup, in the data of the client. -/
def Creating.readBack (K : Creating X) (d : Data X) : CreatePC :=
  match d.data with
  | none => .panicked
  | some m =>
    match m.retentionPolicy K.E K.database K.policy with
    | .error err => .returned none (some (.retentionPolicy err))
    | .ok none => .returned none (some .policyDeleted)
    | .ok (some rpi) => .returned (K.E.shardGroupByTimestamp rpi K.timestamp) none

/-- One step; `none` if the call is not there, or if a server panics. -/
def CreateOp.step (K : Creating X) (s : Creation X) : CreateOp X → Option (Creation X)
  | .first =>
    match s.pc with
    | .begun =>
      match s.exec.client.cacheData.data with
      | none => some { s with pc := .panicked }
      | some m =>
        match m.shardGroupByTimestamp K.E K.database K.policy K.timestamp with
        | some sg => some { s with pc := .returned (some sg) none }
        | none => some { s with pc := .executing }
    | _ => none
  | .exec op =>
    if s.pc = .executing ∧ s.allows op then
      (op.step s.exec).map fun exec => { s with exec := exec }
    else none
  | .second =>
    match s.pc with
    | .executing =>
      match s.exec.pc with
      | .returned (some err) _ => some { s with pc := .returned none (some (.exec err)) }
      | .returned none _ => some { s with pc := K.readBack s.exec.client.cacheData }
      | _ => none
    | _ => none
  | .commit env l =>
    match s.versions with
    | [] => none
    | d :: _ =>
      if d.index < l.index then
        match apply K.P K.emb K.config env K.C l d with
        | .ok _ d' => some { s with
            versions := d' :: s.versions
            executed := if K.Ours l then l.index :: s.executed else s.executed }
        | .error (.err _) d' => some { s with versions := d' :: s.versions }
        | .error .panicked _ => none
      else none
  | .refresh version =>
    (s.versions[version]?).map fun d =>
      { s with exec := { s.exec with client := s.exec.client.install d } }

/-- The call begins. -/
def createShardGroupCall (client : Client X) (closed : Bool) (metaServers : List String) (tls : Bool)
    (versions : List (Data X)) : Creation X :=
  { exec := retryUntilExec client closed metaServers tls
    pc := .begun
    versions := versions
    executed := [] }

/-- **A nil error comes with a group that contains the time.** -/
def Creation.Sound (timestamp : Time) (s : Creation X) : Prop :=
  ∀ group, s.pc = .returned group none → ∃ sg, group = some sg ∧ sg.Covers timestamp

/-! ## When it does -/

/-- If the data has the policy, that has a group for the time. -/
def Creating.Served (K : Creating X) (d : Data X) : Prop :=
  ∀ m ∈ d.data, ∀ rpi ∈ m.policy? K.E K.database K.policy, ∃ sg ∈ rpi.shardGroups,
    sg.Covers K.timestamp

instance (K : Creating X) (d : Data X) : Decidable (K.Served d) :=
  inferInstanceAs (Decidable (∀ m ∈ d.data, _))

/-- `retryUntilExec` has returned. -/
def ExecPC.isReturned : ExecPC → Bool
  | .returned _ _ => true
  | _ => false

/-- What a step must not be: a look at a client that has been closed; the command of another client
    that takes the group away once it has been created; after the wait, a copy from before it. -/
def CreateOp.Suits (K : Creating X) (s : Creation X) : CreateOp X → Prop
  | .exec op => op.Open s.exec
  | .commit env l => s.executed ≠ [] → K.Ours l = false → ∀ d ∈ s.versions.head?,
      ∀ d' ∈ outcome (apply K.P K.emb K.config env K.C l d), K.Served d'
  | .refresh version => s.exec.pc.isReturned → ∀ index ∈ s.exec.success,
      ∀ d ∈ s.versions[version]?, index ≤ d.index
  | .first | .second => True

instance (s : Exec X) : (op : ExecOp X) → Decidable (op.Open s)
  | .head => inferInstanceAs (Decidable (_ = _))
  | .choose | .answer _ | .wait | .close | .setMetaServers _ | .install _ => isTrue trivial

instance (K : Creating X) (s : Creation X) : (op : CreateOp X) → Decidable (op.Suits K s)
  | .exec op => inferInstanceAs (Decidable (op.Open s.exec))
  | .commit _ _ => inferInstanceAs (Decidable (_ → _ → _))
  | .refresh _ => inferInstanceAs (Decidable (_ → _))
  | .first | .second => isTrue trivial

/-- What the documentation of the embedded package says about `CreateShardGroup`: if it returns nil,
    the policy has a group for the time. -/
def CreatesGroups (E : EmbeddedGroups) (emb : Embedded X) : Prop :=
  ∀ {database policy timestamp m m'}, emb.createShardGroup database policy timestamp m = .ok m' →
    ∀ rpi ∈ m'.policy? E database policy, ∃ sg ∈ rpi.shardGroups, sg.Covers timestamp

/-! ## The command -/

/-- A time in range arrives as it was sent. -/
theorem unixNano_toUnixNano {timestamp : Int} (h : InRange timestamp) :
    unixNano (toUnixNano timestamp) = timestamp := by
  obtain ⟨hge, hlt⟩ := h
  have hmod : toUnixNano timestamp = timestamp - 62135596800 * 10 ^ 9 :=
    Int.bmod_eq_of_le (by omega) (by omega)
  rw [unixNano, hmod]
  exact Int.sub_add_cancel _ _

variable {K : Creating X} {d d' : Data X} {l : Log}

theorem Creating.ours_iff : K.Ours l = true ↔ K.C l.data = .ok K.command := by
  rw [Creating.Ours]
  rcases K.C l.data with err | cmd
  · exact iff_of_false Bool.false_ne_true (by simp)
  · rw [decide_eq_true_iff]
    exact ⟨fun h => by rw [h], fun h => by injection h⟩

/-- Term and index do not matter. -/
theorem Creating.Served.stamp (h : K.Served d) (hs : d.stamp l = some d') : K.Served d' := by
  rw [Data.stamp] at hs
  rcases hd : d.data with _ | m
  · rw [hd] at hs
    cases hs
  · rw [hd] at hs
    cases hs
    intro m' hm' rpi hrpi
    cases hm'
    exact h m hd rpi hrpi

/-- The handler of the command. -/
theorem dispatch_command_eq (env : Env) :
    dispatch K.P K.emb K.config env K.command d
      = applyEmbedded (.present ()) (fun _ => K.emb.createShardGroup K.database K.policy
          (unixNano (toUnixNano K.timestamp))) d := rfl

/-- The handler runs the package's method, at the time that went through the command. -/
theorem dispatch_command (env : Env) {m : MetaData X} (hd : d.data = some m) :
    (∃ m', K.emb.createShardGroup K.database K.policy (unixNano (toUnixNano K.timestamp)) m = .ok m' ∧
      dispatch K.P K.emb K.config env K.command d = .ok () { d.cloned with data := some m' }) ∨
    ∃ e, dispatch K.P K.emb K.config env K.command d = .error (.err e) d := by
  have hs : d.data.isSome := by
    rw [hd]
    rfl
  rw [dispatch_command_eq, applyEmbedded, bind_ok (assertExt_present () d), bind_ok (cloneData_ok hs)]
  rcases ho : K.emb.createShardGroup K.database K.policy (unixNano (toUnixNano K.timestamp)) m
    with text | m'
  · exact .inr ⟨_, by rw [bind_error (callEmbedded_error d.cloned hd ho d)]⟩
  · exact .inl ⟨m', rfl, by rw [bind_ok (callEmbedded_ok d.cloned hd ho d)]; rfl⟩

/-- Without data the handler panics. -/
theorem dispatch_command_nil (env : Env) (hd : d.data = none) :
    dispatch K.P K.emb K.config env K.command d = .error .panicked d := by
  rw [dispatch_command_eq, applyEmbedded, bind_ok (assertExt_present () d),
    bind_error (cloneData_panics hd)]

/-- A command that succeeded was run and stamped. -/
theorem stamp_of_settle_ok {r : EStateM.Result Stop (Data X) Unit} (h : settle l r = .ok () d') :
    ∃ d₁, r = .ok () d₁ ∧ d₁.stamp l = some d' := by
  rcases r with ⟨⟨⟩, d₁⟩ | ⟨_ | _, d₁⟩
  · rw [settle] at h
    rcases hs : d₁.stamp l with _ | d₂
    · rw [hs] at h
      cases h
    · rw [hs] at h
      cases h
      exact ⟨d₁, rfl, hs⟩
  · rw [settle] at h
    rcases hs : d₁.stamp l with _ | d₂ <;> rw [hs] at h <;> cases h
  · cases h

/-- One that failed was stamped too. -/
theorem stamp_of_settle_err {r : EStateM.Result Stop (Data X) Unit} {e : MetaErr}
    (h : settle l r = .error (.err e) d') :
    ∃ d₁, r = .error (.err e) d₁ ∧ d₁.stamp l = some d' := by
  rcases r with ⟨⟨⟩, d₁⟩ | ⟨_ | _, d₁⟩
  · rw [settle] at h
    rcases hs : d₁.stamp l with _ | d₂ <;> rw [hs] at h <;> cases h
  · rw [settle] at h
    rcases hs : d₁.stamp l with _ | d₂
    · rw [hs] at h
      cases h
    · rw [hs] at h
      cases h
      exact ⟨d₁, rfl, hs⟩
  · cases h

/-- **The command creates the group**, when it returns nil. -/
theorem served_of_ok (hemb : CreatesGroups K.E K.emb) (ht : InRange K.timestamp) (hl : K.Ours l = true)
    {env : Env}
    (h : apply K.P K.emb K.config env K.C l d = .ok () d') : K.Served d' := by
  rw [apply, Creating.ours_iff.mp hl] at h
  obtain ⟨d₁, hdispatch, hstamp⟩ := stamp_of_settle_ok h
  rcases hd : d.data with _ | m
  · rw [dispatch_command_nil env hd] at hdispatch
    cases hdispatch
  · rcases dispatch_command (K := K) env hd with ⟨m', hcreate, hok⟩ | ⟨e, herr⟩
    · rw [hok] at hdispatch
      cases hdispatch
      refine Creating.Served.stamp (fun m₁ hm₁ rpi hrpi => ?_) hstamp
      cases hm₁
      have hcovers := hemb hcreate rpi hrpi
      rwa [unixNano_toUnixNano ht] at hcovers
    · rw [herr] at hdispatch
      cases hdispatch

/-- When it fails, it leaves everything as it was. -/
theorem served_of_err (hl : K.Ours l = true) {env : Env} {e : MetaErr}
    (h : apply K.P K.emb K.config env K.C l d = .error (.err e) d') (hd : K.Served d) :
    K.Served d' := by
  rw [apply, Creating.ours_iff.mp hl] at h
  obtain ⟨d₁, hdispatch, hstamp⟩ := stamp_of_settle_err h
  rcases hdata : d.data with _ | m
  · rw [dispatch_command_nil env hdata] at hdispatch
    cases hdispatch
  · rcases dispatch_command (K := K) env hdata with ⟨m', -, hok⟩ | ⟨e, herr⟩
    · rw [hok] at hdispatch
      cases hdispatch
    · rw [herr] at hdispatch
      cases hdispatch
      exact hd.stamp hstamp

/-! ## The invariant -/

/-- What a step of `retryUntilExec` other than new data changes. -/
theorem ExecOp.step_frame {s s' : Exec X} {op : ExecOp X} (hop : ∀ data, op ≠ .install data)
    (h : op.step s = some s') :
    s'.client = s.client ∧
      (s'.success = s.success ∨
        ∃ a index, op = .answer a ∧ Meta.exec a = .ok index ∧ s'.success = some index) ∧
      ∀ err cacheIndex, s'.pc = .returned err cacheIndex →
        cacheIndex = s.client.cacheData.index ∨ (s'.pc = s.pc ∧ s'.success = s.success) := by
  cases ExecOp.does_of_step h with
  | succeeded hpc hexec =>
    exact ⟨rfl, .inr ⟨_, _, rfl, hexec, rfl⟩, fun err cacheIndex hreturned => by cases hreturned⟩
  | foundClosed hpc hclosed | gaveUp hpc hexec | waited hpc hw =>
    refine ⟨rfl, .inl rfl, fun err cacheIndex hreturned => .inl ?_⟩
    cases hreturned
    rfl
  | close | setMetaServers => exact ⟨rfl, .inl rfl, fun _ _ _ => .inr ⟨rfl, rfl⟩⟩
  | install => exact absurd rfl (hop _)
  -- the call goes on
  | _ => exact ⟨rfl, .inl rfl, fun err cacheIndex hreturned => by cases hreturned⟩

variable (K) in
/-- **The copy is one of the versions, and every version from the command on has the group.** -/
structure Creation.Consistent (s : Creation X) : Prop where
  told : s.exec.Told
  honest : s.exec.Honest
  answered : ∀ index ∈ s.exec.success, ∃ i ∈ s.executed, i ≤ index
  waited : ∀ cacheIndex, s.exec.pc = .returned none cacheIndex →
    ∃ index ∈ s.exec.success, index ≤ s.exec.client.cacheData.index
  cached : s.exec.client.cacheData ∈ s.versions
  sorted : s.versions.Pairwise fun a b => b.index < a.index
  newest : ∀ i ∈ s.executed, ∀ d ∈ s.versions.head?, i ≤ d.index
  served : ∀ i ∈ s.executed, ∀ d ∈ s.versions, i ≤ d.index → K.Served d
  sound : s.Sound K.timestamp

variable {s s' : Creation X}

/-- Going on keeps it, with a group that contains the time if the call returns without an error. -/
theorem Creation.Consistent.goto (hs : s.Consistent K) {pc : CreatePC}
    (hpc : ∀ group, pc = .returned group none → ∃ sg, group = some sg ∧ sg.Covers K.timestamp) :
    Creation.Consistent K { s with pc := pc } :=
  ⟨hs.told, hs.honest, hs.answered, hs.waited, hs.cached, hs.sorted, hs.newest, hs.served, hpc⟩

/-- The look into the cache before the command is sent. -/
theorem Creation.Consistent.first (hE : K.E.Lawful) (hs : s.Consistent K)
    (h : CreateOp.first.step K s = some s') : s'.Consistent K := by
  rw [CreateOp.step] at h
  rcases hpc : s.pc with _ | _ | _ | _ <;> rw [hpc] at h <;> try cases h
  dsimp only at h
  rcases hdata : s.exec.client.cacheData.data with _ | m
  · rw [hdata] at h
    cases h
    exact hs.goto fun group hg => by cases hg
  · rw [hdata] at h
    dsimp only at h
    rcases hfound : m.shardGroupByTimestamp K.E K.database K.policy K.timestamp with _ | sg
    · rw [hfound] at h
      cases h
      exact hs.goto fun group hg => by cases hg
    · rw [hfound] at h
      cases h
      refine hs.goto fun group hg => ?_
      cases hg
      obtain ⟨rpi, -, hrpi⟩ := Option.bind_eq_some_iff.mp hfound
      exact ⟨sg, rfl, (hE.found hrpi).2⟩

/-- The steps of `retryUntilExec`. -/
theorem Creation.Consistent.exec (hs : s.Consistent K) {op : ExecOp X} (hopen : op.Open s.exec)
    (h : (CreateOp.exec op).step K s = some s') : s'.Consistent K := by
  rw [CreateOp.step] at h
  split_ifs at h with hcan
  obtain ⟨exec, hstep, rfl⟩ := Option.map_eq_some_iff.mp h
  obtain ⟨hpc, hallows⟩ := hcan
  have hop : ∀ data, op ≠ .install data := by
    rintro data rfl
    cases hallows
  obtain ⟨htold, honest⟩ := ExecOp.step_told hs.told hstep
  have honest := (honest hs.honest).mpr hopen
  obtain ⟨hclient, hsuccess, hreturned⟩ := ExecOp.step_frame hop hstep
  refine ⟨htold, honest, fun index hindex => ?_, fun cacheIndex hret => ?_, ?_, hs.sorted, hs.newest,
    hs.served, hs.sound⟩
  · rcases hsuccess with hsame | ⟨a, index', rfl, hexec, hnew⟩
    · rw [hsame] at hindex
      exact hs.answered index hindex
    · rw [hnew] at hindex
      cases hindex
      rw [Creation.allows, hexec] at hallows
      obtain ⟨i, hi, hle⟩ := List.any_eq_true.mp hallows
      exact ⟨i, hi, of_decide_eq_true hle⟩
  · show ∃ index ∈ exec.success, index ≤ exec.client.cacheData.index
    rcases hreturned none cacheIndex hret with hidx | ⟨hsame, hsuccess⟩
    · obtain ⟨index, hindex, hle⟩ := honest cacheIndex hret
      refine ⟨index, hindex, ?_⟩
      rw [hclient, ← hidx]
      exact hle
    · rw [hsuccess, hclient]
      exact hs.waited cacheIndex (hsame ▸ hret)
  · show exec.client.cacheData ∈ s.versions
    rw [hclient]
    exact hs.cached

/-- The look into the cache afterwards. -/
theorem Creation.Consistent.second (hE : K.E.Lawful) (hs : s.Consistent K)
    (h : CreateOp.second.step K s = some s') : s'.Consistent K := by
  rw [CreateOp.step] at h
  rcases hpc : s.pc with _ | _ | _ | _ <;> rw [hpc] at h <;> try cases h
  dsimp only at h
  rcases hexec : s.exec.pc with _ | _ | _ | _ | ⟨_ | err, cacheIndex⟩ | _ <;> rw [hexec] at h <;>
    cases h
  · refine hs.goto fun group hg => ?_
    -- the copy is not before the command
    obtain ⟨index, hindex, hle⟩ := hs.waited cacheIndex hexec
    obtain ⟨i, hi, hile⟩ := hs.answered index hindex
    have hserved := hs.served i hi _ hs.cached (UInt64.le_trans hile hle)
    rw [Creating.readBack] at hg
    rcases hdata : s.exec.client.cacheData.data with _ | m
    · rw [hdata] at hg
      cases hg
    · rw [hdata] at hg
      dsimp only at hg
      rcases hpol : m.retentionPolicy K.E K.database K.policy with e | _ | rpi
      · rw [hpol] at hg
        cases hg
      · rw [hpol] at hg
        cases hg
      · rw [hpol] at hg
        cases hg
        have hcovers := hserved m hdata rpi (by rw [MetaData.policy?, hpol]; rfl)
        obtain ⟨sg, hsg⟩ := Option.isSome_iff_exists.mp (hE.finds hcovers)
        exact ⟨sg, hsg, (hE.found hsg).2⟩
  · exact hs.goto fun group hg => by cases hg

/-- The cache is replaced by a version that the store has had. -/
theorem Creation.Consistent.refresh (hs : s.Consistent K) {version : Nat}
    (hsuits : (CreateOp.refresh version).Suits K s)
    (h : (CreateOp.refresh version).step K s = some s') : s'.Consistent K := by
  rw [CreateOp.step] at h
  obtain ⟨d, hd, rfl⟩ := Option.map_eq_some_iff.mp h
  refine ⟨hs.told, hs.honest, hs.answered, fun cacheIndex hret => ?_, List.mem_of_getElem? hd,
    hs.sorted, hs.newest, hs.served, hs.sound⟩
  have hreturned : s.exec.pc.isReturned := by
    have hpc : s.exec.pc = .returned none cacheIndex := hret
    rw [hpc]
    rfl
  obtain ⟨index, hindex, -⟩ := hs.waited cacheIndex hret
  exact ⟨index, hindex, hsuits hreturned index hindex d hd⟩

/-- **A new version**, which has the group if the command was executed. -/
theorem Creation.Consistent.push (hs : s.Consistent K) {d d' : Data X}
    (hhead : s.versions.head? = some d) (hlt : d.index < d'.index) {executed : List UInt64}
    (hold : ∀ i ∈ s.executed, i ∈ executed) (hnew : ∀ i ∈ executed, i ∈ s.executed ∨ i = d'.index)
    (hserved : executed ≠ [] → K.Served d') :
    Creation.Consistent K { s with versions := d' :: s.versions, executed := executed } := by
  have hbelow : ∀ v ∈ s.versions, v.index ≤ d.index := by
    intro v hv
    rcases hversions : s.versions with _ | ⟨d₀, versions⟩
    · rw [hversions] at hhead
      cases hhead
    · have hsorted := hs.sorted
      rw [hversions] at hhead hv hsorted
      cases hhead
      rcases List.mem_cons.mp hv with rfl | hv
      · exact UInt64.le_refl _
      · exact UInt64.le_of_lt ((List.pairwise_cons.mp hsorted).1 v hv)
  refine ⟨hs.told, hs.honest, fun index hindex => ?_, hs.waited, List.mem_cons_of_mem _ hs.cached,
    List.pairwise_cons.mpr ⟨fun v hv => UInt64.lt_of_le_of_lt (hbelow v hv) hlt, hs.sorted⟩,
    fun i hi v hv => ?_, fun i hi v hv hle => ?_, hs.sound⟩
  · obtain ⟨i, hi, hle⟩ := hs.answered index hindex
    exact ⟨i, hold i hi, hle⟩
  · cases hv
    rcases hnew i hi with hi | rfl
    · exact UInt64.le_trans (hs.newest i hi d hhead) (UInt64.le_of_lt hlt)
    · exact UInt64.le_refl _
  · rcases List.mem_cons.mp hv with rfl | hv
    · exact hserved (List.ne_nil_of_mem hi)
    · rcases hnew i hi with hi | rfl
      · exact hs.served i hi v hv hle
      · -- the older versions are before the new entry
        exact absurd (UInt64.le_trans hle (hbelow v hv)) (UInt64.not_le.mpr hlt)

/-- The store applies an entry, ours or another. -/
theorem Creation.Consistent.commit (hemb : CreatesGroups K.E K.emb) (ht : InRange K.timestamp)
    (hs : s.Consistent K) {env : Env} {l : Log} (hsuits : (CreateOp.commit env l).Suits K s)
    (h : (CreateOp.commit env l).step K s = some s') : s'.Consistent K := by
  rw [CreateOp.step] at h
  rcases hversions : s.versions with _ | ⟨d, versions⟩
  · rw [hversions] at h
    cases h
  · have hhead : s.versions.head? = some d := by
      rw [hversions]
      rfl
    rw [hversions] at h
    dsimp only at h
    have hlt : d.index < l.index := by
      by_contra hle
      rw [if_neg hle] at h
      cases h
    rw [if_pos hlt] at h
    have hindex : ∀ d', outcome (apply K.P K.emb K.config env K.C l d) = some d' →
        d.index < d'.index := by
      intro d' hd'
      rw [index_of_apply K.P K.emb K.config K.C hd']
      exact hlt
    -- the entry of another client leaves the group
    have hother : K.Ours l = false → ∀ d', outcome (apply K.P K.emb K.config env K.C l d) = some d' →
        s.executed ≠ [] → K.Served d' := fun hours d' hd' hexecuted =>
      hsuits hexecuted hours d hhead d' hd'
    rcases happly : apply K.P K.emb K.config env K.C l d with ⟨⟨⟩, d'⟩ | ⟨e | _, d'⟩
    · have hout : outcome (apply K.P K.emb K.config env K.C l d) = some d' := by
        rw [happly]
        rfl
      have hsame : d'.index = l.index := index_of_apply K.P K.emb K.config K.C hout
      rw [happly] at h
      cases h
      rw [← hversions]
      rcases hours : K.Ours l with _ | _
      · exact hs.push hhead (hindex d' hout) (fun i hi => hi) (fun i hi => .inl hi)
          (hother hours d' hout)
      · refine hs.push hhead (hindex d' hout) (fun i hi => List.mem_cons_of_mem _ hi)
          (fun i hi => ?_) fun _ => served_of_ok hemb ht hours happly
        rcases List.mem_cons.mp hi with rfl | hi
        · exact .inr hsame.symm
        · exact .inl hi
    · have hout : outcome (apply K.P K.emb K.config env K.C l d) = some d' := by
        rw [happly]
        rfl
      rw [happly] at h
      cases h
      rw [← hversions]
      refine hs.push hhead (hindex d' hout) (fun i hi => hi) (fun i hi => .inl hi) fun hexecuted => ?_
      rcases hours : K.Ours l with _ | _
      · exact hother hours d' hout hexecuted
      · obtain ⟨i, hi⟩ := List.exists_mem_of_ne_nil _ hexecuted
        have hserved := hs.served i hi d (List.mem_of_mem_head? hhead) (hs.newest i hi d hhead)
        exact served_of_err hours happly hserved
    · rw [happly] at h
      cases h

/-- **One step**, whichever it is. -/
theorem Creation.Consistent.step (hE : K.E.Lawful) (hemb : CreatesGroups K.E K.emb)
    (ht : InRange K.timestamp) (hs : s.Consistent K) {op : CreateOp X} (hsuits : op.Suits K s)
    (h : op.step K s = some s') : s'.Consistent K := by
  cases op with
  | first => exact hs.first hE h
  | exec op => exact hs.exec hsuits h
  | second => exact hs.second hE h
  | commit env l => exact hs.commit hemb ht hsuits h
  | refresh version => exact hs.refresh hsuits h

/-- **A nil error comes with a group that contains the time**, in every run of the call with other
    clients' commands and refreshes of the copy, for a time in range, as long as the loop does not
    find the client closed, no other command takes the group away once it has been created, and
    after the wait the copy is not replaced by one from before it. -/
theorem created_group_is_there (K : Creating X) (hE : K.E.Lawful) (hemb : CreatesGroups K.E K.emb)
    (ht : InRange K.timestamp) {client : Client X} {versions : List (Data X)}
    (hcached : client.cacheData ∈ versions)
    (hsorted : versions.Pairwise fun a b => b.index < a.index) (closed : Bool)
    (metaServers : List String) (tls : Bool) {ops : List (CreateOp X)}
    (hsuits : Along (CreateOp.step K) (fun s op => op.Suits K s)
      (createShardGroupCall client closed metaServers tls versions) ops) :
    ∀ k s, (ops.take k).foldlM (CreateOp.step K)
        (createShardGroupCall client closed metaServers tls versions) = some s →
      s.Sound K.timestamp := by
  intro k s hrun
  have hstart : (createShardGroupCall client closed metaServers tls versions).Consistent K := by
    refine ⟨rfl, fun cacheIndex hpc => ?_, fun index hindex => absurd hindex (Option.not_mem_none _),
      fun cacheIndex hpc => ?_, hcached, hsorted, fun i hi => absurd hi List.not_mem_nil,
      fun i hi => absurd hi List.not_mem_nil, fun group hpc => ?_⟩
    · cases hpc
    · cases hpc
    · cases hpc
  exact ((hsuits.take k).inv (fun s op s' hs hop hstep => hs.step hE hemb ht hop hstep) hstart
    hrun).sound

end Call

/-- A package that makes a group with one shard, a cell of the policy's grid, where there is none, and
    marks those that are deleted. -/
def cellGroups : Embedded Unit :=
  { Embedded.idle with
    createShardGroup := fun database policy timestamp m =>
      match m.retentionPolicy findAndSort database policy with
      | .ok (some rpi) =>
        if rpi.shardGroupDuration ≤ 0 then .error "shard group duration must be positive"
        else if (findAndSort.shardGroupByTimestamp rpi timestamp).isSome then .ok m
        else .ok (m.addShardGroup findAndSort database policy
          { id := m.maxShardGroupID + 1
            startTime := truncate timestamp rpi.shardGroupDuration
            endTime := truncate timestamp rpi.shardGroupDuration + rpi.shardGroupDuration
            deletedAt := 0
            shards := [{ id := m.maxShardID + 1, owners := [] }] } (m.maxShardID + 1))
      | _ => .error ("retention policy not found: " ++ policy)
    deleteShardGroup := fun _ _ id now m => .ok (m.mark (· = id) now) }

/-- It creates the group that this repository looks for. -/
theorem cellGroups_creates : CreatesGroups findAndSort cellGroups := by
  intro database policy timestamp m m' hcreate rpi hrpi
  rw [cellGroups] at hcreate
  dsimp only at hcreate
  rcases hpol : m.retentionPolicy findAndSort database policy with e | _ | rpi₀
  · rw [hpol] at hcreate
    cases hcreate
  · rw [hpol] at hcreate
    cases hcreate
  · rw [hpol] at hcreate
    dsimp only at hcreate
    split_ifs at hcreate with hd hfound
    · -- there is a group already
      cases hcreate
      rw [MetaData.policy?, hpol] at hrpi
      cases hrpi
      obtain ⟨sg, hsg⟩ := Option.isSome_iff_exists.mp hfound
      exact ⟨sg, findAndSort_lawful.found hsg⟩
    · have hpos : 0 < rpi₀.shardGroupDuration := Int.not_le.mp hd
      cases hcreate
      obtain ⟨-, -, -, -, hpol'⟩ := addShardGroup_split findAndSort_lawful hpol _ (m.maxShardID + 1)
      rw [MetaData.policy?, hpol'] at hrpi
      cases hrpi
      refine ⟨_, (findAndSort_lawful.perm _).mem_iff.mpr
        (List.mem_append_right _ List.mem_cons_self), rfl, truncate_le hpos, lt_truncate_add hpos⟩

/-- `CreateShardGroupCommand` for `db`, `rp` and the time 7. -/
def createGroupBody : Bytes := [8, 7, 218, 6, 10, 10, 2, 100, 98, 18, 2, 114, 112, 24, 7]

/-- `DeleteShardGroupCommand` for `db`, `rp` and the group 1. -/
def deleteGroupBody : Bytes := [8, 8, 226, 6, 10, 10, 2, 100, 98, 18, 2, 114, 112, 24, 1]

/-- The call, for a policy that has no group. -/
def creatingGroup : Creating Unit where
  P := clusterProto
  emb := cellGroups
  config := { retentionAutoCreate := true }
  C := unmarshalCommand
  E := findAndSort
  database := "db"
  policy := "rp"
  timestamp := unixNano 7

/-- A client that has seen the policy without groups. -/
def freshClient : Client Unit := { (newClient : Client Unit) with cacheData := twoDataNodes }

/-- The answer that the command was executed, when the metadata has this index. -/
def executedAt (index : UInt64) : Answer :=
  .response 200 "200 OK" "" (.ok { error := "", index := index })

/-- The call as it should be: the command is executed, answered and waited for, and the copy has
    it. -/
def createdInOrder : List (CreateOp Unit) :=
  [.first, .exec .head, .exec .choose,
    .commit alone { term := 1, index := 5, data := createGroupBody },
    .exec (.answer (executedAt 5)), .exec .wait, .refresh 0, .exec .wait, .exec .wait, .second]

theorem createdInOrder_suits :
    Along (CreateOp.step creatingGroup) (fun s op => op.Suits creatingGroup s)
    (createShardGroupCall freshClient false ["meta:8091"] false [twoDataNodes]) createdInOrder := by
  decide +kernel

theorem created_group_in_order :
    (createdInOrder.foldlM (CreateOp.step creatingGroup)
        (createShardGroupCall freshClient false ["meta:8091"] false [twoDataNodes])).map Creation.pc
      = some (.returned (some
          { id := 1, startTime := unixNano 0, endTime := unixNano 10, deletedAt := 0,
            shards := [{ id := 1, owners := [] }] }) none) ∧
    ∀ k s, (createdInOrder.take k).foldlM (CreateOp.step creatingGroup)
        (createShardGroupCall freshClient false ["meta:8091"] false [twoDataNodes]) = some s →
      s.Sound creatingGroup.timestamp :=
  ⟨by decide +kernel, created_group_is_there creatingGroup findAndSort_lawful cellGroups_creates
    (by decide) List.mem_cons_self (List.pairwise_singleton _ _) false ["meta:8091"] false
    createdInOrder_suits⟩

/-- The group is deleted before the copy is refreshed. -/
def deletedInBetween : List (CreateOp Unit) :=
  [.first, .exec .head, .exec .choose,
    .commit alone { term := 1, index := 5, data := createGroupBody },
    .commit { alone with now := unixNano 9 } { term := 1, index := 6, data := deleteGroupBody },
    .exec (.answer (executedAt 6)), .exec .wait, .refresh 0, .exec .wait, .exec .wait, .second]

/-- **The call returns nil, and no group.** -/
theorem created_group_is_nil :
    (deletedInBetween.foldlM (CreateOp.step creatingGroup)
        (createShardGroupCall freshClient false ["meta:8091"] false [twoDataNodes])).map Creation.pc
      = some (.returned none none) ∧
    ¬ ∀ k s, (deletedInBetween.take k).foldlM (CreateOp.step creatingGroup)
        (createShardGroupCall freshClient false ["meta:8091"] false [twoDataNodes]) = some s →
      s.Sound creatingGroup.timestamp := by
  have hrun : (deletedInBetween.foldlM (CreateOp.step creatingGroup)
      (createShardGroupCall freshClient false ["meta:8091"] false [twoDataNodes])).map Creation.pc
        = some (.returned none none) := by
    decide +kernel
  refine ⟨hrun, fun hall => ?_⟩
  obtain ⟨s, hs, hpc⟩ := Option.map_eq_some_iff.mp hrun
  obtain ⟨sg, hsg, -⟩ := hall 11 s hs none hpc
  cases hsg

end InfluxCluster.Meta
