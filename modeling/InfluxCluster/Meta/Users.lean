/-
  Where are the users?  `Data` has a list of its own, and so has the embedded `meta.Data`.

  WRITERS.  The four commands on users are applied to the embedded data (`meta/store_fsm.go`), and
  no command touches the other list.

  READERS.  `Client.User`, `Users` and `Authenticate` read the list of `Data`; `UserCount` and
  `AdminUserExists` read the embedded one (`meta/client.go`).

  What the commands make of an empty table is `produced`, by what the names of the methods say
  (`ActsOn` is that assumption on the embedded package; its users are the `view` of what this model
  does not look into).  However the data gets to the client, field by field or through
  `UnmarshalBinary`, which does not read users at all, the first three readers see nobody.  So they
  see what the commands produced exactly if that is nobody (`one_truth_iff`).
-/
import InfluxCluster.Meta.Agreement
import InfluxCluster.Meta.Client
import InfluxCluster.Meta.Poison

namespace InfluxCluster.Meta

open InfluxCluster.Lib

/-! ## Commands on users -/

/-- The commands. -/
inductive UserCommand
  | createUser (name hash : String) (admin : Bool)
  | updateUser (name hash : String)
  | dropUser (name : String)
  | setAdminPrivilege (username : String) (admin : Bool)
  deriving DecidableEq

namespace UserCommand

/-- The message. -/
def command : UserCommand → Command
  | .createUser name hash admin =>
    { type := .createUser, createUser := .present { name := name, hash := hash, admin := admin } }
  | .updateUser name hash =>
    { type := .updateUser, updateUser := .present { name := name, hash := hash } }
  | .dropUser name => { type := .dropUser, dropUser := .present { name := name } }
  | .setAdminPrivilege username admin =>
    { type := .setAdminPrivilege
      setAdminPrivilege := .present { username := username, admin := admin } }

/-- Somebody has the name. -/
def Known (t : List UserInfo) (name : String) : Prop := ∃ u ∈ t, u.name = name

instance (t : List UserInfo) (name : String) : Decidable (Known t name) :=
  inferInstanceAs (Decidable (∃ u ∈ t, u.name = name))

/-- Whoever has the name is changed. -/
def change (t : List UserInfo) (name : String) (f : UserInfo → UserInfo) : List UserInfo :=
  t.map fun u => if u.name = name then f u else u

/-- What the command does to a table of users, as its name says; `none` is an error. -/
def act (t : List UserInfo) : UserCommand → Option (List UserInfo)
  | .createUser name hash admin =>
    if name = "" ∨ Known t name then none
    else some (t ++ [{ name := name, hash := hash, admin := admin }])
  | .updateUser name hash =>
    if Known t name then some (change t name fun u => { u with hash := hash }) else none
  | .dropUser name => if Known t name then some (t.filter fun u => u.name ≠ name) else none
  | .setAdminPrivilege username admin =>
    if Known t username then some (change t username fun u => { u with admin := admin }) else none

/-- The method of the embedded package. -/
def call {X : Type} (emb : Embedded X) : UserCommand → MetaData X → Except String (MetaData X)
  | .createUser name hash admin => emb.createUser name hash admin
  | .updateUser name hash => emb.updateUser name hash
  | .dropUser name => emb.dropUser name
  | .setAdminPrivilege username admin => emb.setAdminPrivilege username admin

end UserCommand

/-- The embedded package does what the names of its methods say, to the users that `view` finds. -/
def Embedded.ActsOn {X : Type} (emb : Embedded X) (view : X → List UserInfo) : Prop :=
  ∀ (cmd : UserCommand) (m : MetaData X),
    (cmd.call emb m).toOption.map (fun m' => view m'.rest) = cmd.act (view m.rest)

/-- An entry of the log, with the command in it and what the replica sees. -/
structure UserEntry where
  cmd : UserCommand
  log : Log
  env : Env

/-- The users that the commands produce, from nobody. -/
def produced (entries : List UserEntry) : List UserInfo :=
  entries.foldl (fun t e => (e.cmd.act t).getD t) []

section Users

variable {X : Type} (P : Protobuf) (emb : Embedded X) (config : MetaConfig) (C : CommandCodec)

/-! ## Writers -/

/-- The state machine hands the command to the embedded data. -/
theorem outcome_dispatch {d : Data X} {m : MetaData X} (hd : d.data = some m) (env : Env)
    (cmd : UserCommand) :
    outcome (dispatch P emb config env cmd.command d) = some (d.afterCall (cmd.call emb m)) := by
  cases cmd with
  | createUser name hash admin => exact outcome_applyEmbedded hd _
  | updateUser name hash => exact outcome_applyEmbedded hd _
  | dropUser name => exact outcome_applyEmbedded hd _
  | setAdminPrivilege username admin => exact outcome_applyEmbedded hd _

/-- The embedded data has these users, and the list of `Data` has none. -/
structure Holds (view : X → List UserInfo) (d : Data X) (t : List UserInfo) : Prop where
  embedded : ∃ m, d.data = some m ∧ view m.rest = t
  users : d.users = []

/-- The data that the store is left with by a list of entries. -/
def applyAll (entries : List UserEntry) (d : Data X) : Option (Data X) :=
  entries.foldlM (fun d e => outcome (apply P emb config e.env C e.log d)) d

/-- One command changes the embedded users, and no others. -/
theorem Holds.apply {view : X → List UserInfo} (hemb : emb.ActsOn view) {d : Data X}
    {t : List UserInfo} (h : Holds view d t) {e : UserEntry}
    (he : C e.log.data = .ok e.cmd.command) :
    ∃ d', outcome (apply P emb config e.env C e.log d) = some d' ∧
      Holds view d' ((e.cmd.act t).getD t) := by
  obtain ⟨⟨m, hm, rfl⟩, husers⟩ := h
  have hact := hemb e.cmd m
  rw [Meta.apply, he]
  dsimp only
  rw [outcome_settle, outcome_dispatch P emb config hm, Option.bind_some]
  rcases hcall : e.cmd.call emb m with text | m'
  · -- the error is returned, and the data is stamped as it was
    rw [hcall] at hact
    rw [Data.afterCall, Data.stamp, hm, ← hact]
    exact ⟨_, rfl, ⟨_, rfl, rfl⟩, husers⟩
  · rw [hcall] at hact
    -- the clone has as many users as there were, and there were none
    have hclone : d.cloned.users = [] := by
      rw [Data.cloned, Data.cloneUsers, husers]
      rfl
    rw [← hact]
    exact ⟨_, rfl, ⟨_, rfl, rfl⟩, hclone⟩

/-- All commands do. -/
theorem Holds.applyAll {view : X → List UserInfo} (hemb : emb.ActsOn view)
    {entries : List UserEntry} (hC : ∀ e ∈ entries, C e.log.data = .ok e.cmd.command) {d : Data X}
    {t : List UserInfo} (h : Holds view d t) :
    ∃ d', Meta.applyAll P emb config C entries d = some d' ∧
      Holds view d' (entries.foldl (fun t e => (e.cmd.act t).getD t) t) := by
  induction entries generalizing d t with
  | nil => exact ⟨d, rfl, h⟩
  | cons e entries ih =>
    obtain ⟨d₁, hd₁, h₁⟩ := h.apply P emb config C hemb (hC e List.mem_cons_self)
    obtain ⟨d', hd', h'⟩ := ih (fun e' he' => hC e' (List.mem_cons_of_mem e he')) h₁
    refine ⟨d', ?_, h'⟩
    rw [Meta.applyAll, List.foldlM_cons, hd₁]
    exact hd'

/-! ## Readers -/

/-- How the data of the store may get to a client: field by field, or as what `UnmarshalBinary`
    makes of some bytes in which the embedded data is that of the store. -/
inductive Delivered (d : Data X) : Data X → Prop
  | lossless : Delivered d d
  | decoded {b : Bytes} {data : Data X}
      (h : Data.zero.unmarshalBinary P emb.toEmbeddedCodec b = .ok data) (hdata : data.data = d.data) :
      Delivered d data

namespace Client

/-- `Users`. -/
def users (c : Client X) : List UserInfo := c.cacheData.users

/-- `User`; `none` is `ErrUserNotFound`. -/
def user (c : Client X) (name : String) : Option UserInfo :=
  c.cacheData.users.find? fun u => u.name = name

/-- The users of the embedded data. -/
def embeddedUsers (view : X → List UserInfo) (c : Client X) : List UserInfo :=
  (c.cacheData.data.map fun m => view m.rest).getD []

/-- `UserCount`. -/
def userCount (view : X → List UserInfo) (c : Client X) : Nat := (c.embeddedUsers view).length

/-- `AdminUserExists`. -/
def adminUserExists (view : X → List UserInfo) (c : Client X) : Bool :=
  (c.embeddedUsers view).any UserInfo.admin

end Client

/-- **Every reader sees the users of the table.** -/
structure OneTruth (K : Crypto) (view : X → List UserInfo) (c : Client X) (t : List UserInfo) :
    Prop where
  users : ∀ u, u ∈ c.users ↔ u ∈ t
  user : ∀ name, c.user name = t.find? fun u => u.name = name
  authenticate : ∀ username password salt,
    (∃ u c', authenticate K (.ok salt) username password c = .ok u c')
      ↔ ∃ u ∈ t, u.name = username ∧ K.bcryptAccepts u.hash password
  userCount : c.userCount view = t.length
  adminUserExists : c.adminUserExists view = true ↔ ∃ u ∈ t, u.admin = true

theorem Holds.delivered {view : X → List UserInfo} {d data : Data X} {t : List UserInfo}
    (h : Holds view d t) (hdata : Delivered P emb d data) : Holds view data t := by
  cases hdata with
  | lossless => exact h
  | decoded hb hd =>
    refine ⟨?_, ?_⟩
    · rw [hd]
      exact h.embedded
    · rw [Data.unmarshalBinary] at hb
      split at hb
      · cases hb
      · cases hb
        rfl

/-- A client whose data has no users of its own. -/
theorem oneTruth_iff_of_holds {K : Crypto} {view : X → List UserInfo} {c : Client X}
    {t : List UserInfo} (h : Holds view c.cacheData t) : OneTruth K view c t ↔ t = [] := by
  constructor
  · intro htruth
    apply List.eq_nil_iff_forall_not_mem.mpr
    intro u hu
    have hmem := (htruth.users u).mpr hu
    rw [Client.users, h.users] at hmem
    cases hmem
  · rintro rfl
    obtain ⟨m, hm, hview⟩ := h.embedded
    have hemb : c.embeddedUsers view = [] := by
      rw [Client.embeddedUsers, hm]
      exact hview
    constructor
    · intro u
      rw [Client.users, h.users]
    · intro name
      rw [Client.user, h.users]
    · intro username password salt
      refine iff_of_false ?_ ?_
      · rintro ⟨u, c', hauth⟩
        rw [authenticate, Data.user, h.users] at hauth
        cases hauth
      · rintro ⟨u, hu, -⟩
        cases hu
    · rw [Client.userCount, hemb]
    · rw [Client.adminUserExists, hemb]
      refine iff_of_false Bool.false_ne_true ?_
      rintro ⟨u, hu, -⟩
      cases hu

/-- **The readers agree with the commands exactly if the commands produce nobody.** -/
theorem one_truth_iff {view : X → List UserInfo} (hemb : emb.ActsOn view) {rest : X}
    (hrest : view rest = []) {entries : List UserEntry}
    (hC : ∀ e ∈ entries, C e.log.data = .ok e.cmd.command) {d data : Data X}
    (hd : applyAll P emb config C entries (newStoreData rest) = some d)
    (hdata : Delivered P emb d data) (K : Crypto) (client : Client X) :
    OneTruth K view (client.install data) (produced entries) ↔ produced entries = [] := by
  have hnew : Holds view (newStoreData rest) [] := ⟨⟨_, rfl, hrest⟩, rfl⟩
  obtain ⟨d', hd', hholds⟩ := hnew.applyAll P emb config C hemb hC
  rw [hd] at hd'
  cases hd'
  exact oneTruth_iff_of_holds (hholds.delivered P emb hdata)

end Users

/-! ## A package with users -/

/-- A method that does to the users what its name says. -/
def tableMethod (cmd : UserCommand) (m : MetaData (List UserInfo)) :
    Except String (MetaData (List UserInfo)) :=
  match cmd.act m.rest with
  | some t => .ok { m with rest := t }
  | none => .error "user already exists or not found"

/-- A package of which only the users matter. -/
def usersOnly : Embedded (List UserInfo) :=
  { Embedded.still [] with
    createUser := fun name hash admin => tableMethod (.createUser name hash admin)
    dropUser := fun name => tableMethod (.dropUser name)
    updateUser := fun name hash => tableMethod (.updateUser name hash)
    setAdminPrivilege := fun username admin => tableMethod (.setAdminPrivilege username admin) }

theorem actsOn_usersOnly : usersOnly.ActsOn id := by
  have htable : ∀ (cmd : UserCommand) (m : MetaData (List UserInfo)),
      (tableMethod cmd m).toOption.map (fun m' => id m'.rest) = cmd.act (id m.rest) := by
    intro cmd m
    show (tableMethod cmd m).toOption.map MetaData.rest = cmd.act m.rest
    rw [tableMethod]
    rcases cmd.act m.rest with _ | t
    · rfl
    · rfl
  intro cmd m
  cases cmd with
  | createUser name hash admin => exact htable (.createUser name hash admin) m
  | updateUser name hash => exact htable (.updateUser name hash) m
  | dropUser name => exact htable (.dropUser name) m
  | setAdminPrivilege username admin => exact htable (.setAdminPrivilege username admin) m

/-- Alice is created. -/
def createAlice : UserEntry :=
  { cmd := .createUser "alice" "hash1" true
    log :=
      { term := 1, index := 2
        data := [8, 11, 250, 6, 16, 10, 5, 97, 108, 105, 99, 101, 18, 5, 104, 97, 115, 104, 49, 24, 1] }
    env := alone }

/-- Alice is dropped. -/
def dropAlice : UserEntry :=
  { cmd := .dropUser "alice"
    log := { term := 1, index := 3, data := [8, 12, 130, 7, 7, 10, 5, 97, 108, 105, 99, 101] }
    env := alone }

theorem one_truth_nobody :
    ∃ d, applyAll Protobuf.idle usersOnly ⟨false⟩ unmarshalCommand [createAlice, dropAlice]
        (newStoreData []) = some d ∧
      OneTruth plainCrypto id (newClient.install d) (produced [createAlice, dropAlice]) := by
  have hC : ∀ e ∈ [createAlice, dropAlice], unmarshalCommand e.log.data = .ok e.cmd.command := by
    intro e he
    rcases List.mem_cons.mp he with rfl | he
    · decide +kernel
    · rw [List.mem_singleton.mp he]
      decide +kernel
  have hsome : (applyAll Protobuf.idle usersOnly ⟨false⟩ unmarshalCommand [createAlice, dropAlice]
      (newStoreData [])).isSome := by decide +kernel
  obtain ⟨d, hd⟩ := Option.isSome_iff_exists.mp hsome
  refine ⟨d, hd, ?_⟩
  exact (one_truth_iff Protobuf.idle usersOnly ⟨false⟩ unmarshalCommand actsOn_usersOnly rfl hC hd
    .lossless plainCrypto newClient).mpr (by decide +kernel)

/-- **Alice is created, and counted; but there is nobody of that name.** -/
theorem alice_is_nobody :
    ∃ d, applyAll Protobuf.idle usersOnly ⟨false⟩ unmarshalCommand [createAlice] (newStoreData [])
        = some d ∧
      produced [createAlice] = [{ name := "alice", hash := "hash1", admin := true }] ∧
      (newClient.install d).users = [] ∧ (newClient.install d).user "alice" = none ∧
      (newClient.install d).userCount id = 1 ∧ (newClient.install d).adminUserExists id = true ∧
      ¬ OneTruth plainCrypto id (newClient.install d) (produced [createAlice]) := by
  refine ⟨_, rfl, by decide +kernel, rfl, rfl, rfl, rfl, fun h => ?_⟩
  have hcount := (h.users { name := "alice", hash := "hash1", admin := true }).mpr (by decide +kernel)
  cases hcount

end InfluxCluster.Meta
