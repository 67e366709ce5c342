/-
  The client of the meta service (`meta/client.go`): its copy of the metadata, and how it checks
  passwords.

  A password that bcrypt has accepted is remembered as a salted hash, so that the next call is
  cheap.  The cache is asked BEFORE the hash of the user, and never compared with it then.  What
  makes that sound is an invariant (`CacheOK`): an entry is about the user's current hash, and was
  made from a password that this hash accepts.  `Authenticate` keeps it, and so does
  `pollForUpdates` because it drops the entries of users that are gone or have another hash.

  `sha256` and bcrypt are parameters.  That two passwords have the same salted hash is excluded for
  the passwords of the run only (`NoCollision`).  The map is a function to `Option`; a Go string is
  its bytes, where it is hashed.
-/
import Mathlib.Data.List.Induction
import Mathlib.Logic.Function.Basic
import InfluxCluster.Meta.Data
import InfluxCluster.Lib.Prog

namespace InfluxCluster.Meta

open InfluxCluster.Lib

/-! ## The client -/

/-- `type authUser struct`. -/
structure AuthUser where
  bhash : String
  salt : Bytes
  hash : Bytes
  deriving DecidableEq

/-- `type Client struct`, as far as it holds metadata; `changed` counts the channels that were
    closed to signal a change. -/
structure Client (X : Type) where
  cacheData : Data X
  changed : Nat
  authCache : String → Option AuthUser

/-- `NewClient`. -/
def newClient {X : Type} : Client X :=
  { cacheData := Data.zero, changed := 0, authCache := fun _ => none }

/-- The hash functions. -/
structure Crypto where
  sha256 : Bytes → Bytes
  /-- `bcrypt.CompareHashAndPassword(hash, password)` returns nil. -/
  bcryptAccepts : String → Bytes → Bool

/-- Errors of `Authenticate`. -/
inductive AuthErr
  /-- `ErrUserNotFound`. -/
  | userNotFound
  /-- `ErrAuthenticate`. -/
  | authenticate
  /-- The source of random numbers failed. -/
  | rand (text : String)
  deriving DecidableEq

section Client

variable {X : Type} (K : Crypto)

/-- `hashWithSalt`. -/
def Crypto.hashWithSalt (salt password : Bytes) : Bytes := K.sha256 (salt ++ password)

/-- The cache has the password for the name. -/
def Client.Remembers (c : Client X) (username : String) (password : Bytes) : Prop :=
  ∃ au ∈ c.authCache username, K.hashWithSalt au.salt password = au.hash

instance (c : Client X) (username : String) (password : Bytes) :
    Decidable (c.Remembers K username password) :=
  inferInstanceAs (Decidable (∃ au ∈ c.authCache username, _))

/-- `c.authCache[username] = au`. -/
def Client.remember (c : Client X) (username : String) (au : AuthUser) : Client X :=
  { c with authCache := Function.update c.authCache username (some au) }

/-- `Authenticate`, where `rand` is what the source of random numbers gives for a salt. -/
def authenticate (rand : Except String Bytes) (username : String) (password : Bytes) :
    EStateM AuthErr (Client X) UserInfo := fun c =>
  match c.cacheData.user username with
  | none => .error .userNotFound c
  | some userInfo =>
    if c.Remembers K username password then .ok userInfo c
    else if K.bcryptAccepts userInfo.hash password then
      match rand with
      | .error text => .error (.rand text) c
      | .ok salt =>
        .ok userInfo (c.remember username
          { salt := salt, hash := K.hashWithSalt salt password, bhash := userInfo.hash })
    else .error .authenticate c

/-- The body of the loop in `updateAuthCache`. -/
def keepUser (authCache newCache : String → Option AuthUser) (userInfo : UserInfo) :
    String → Option AuthUser :=
  match authCache userInfo.name with
  | some cached =>
    if cached.bhash = userInfo.hash then Function.update newCache userInfo.name (some cached)
    else newCache
  | none => newCache

/-- `updateAuthCache`. -/
def Client.updateAuthCache (c : Client X) : Client X :=
  { c with authCache := c.cacheData.users.foldl (keepUser c.authCache) fun _ => none }

/-- What `pollForUpdates` does with the data that it was given. -/
def Client.install (data : Data X) (c : Client X) : Client X :=
  { ({ c with cacheData := data } : Client X).updateAuthCache with
    changed := if c.cacheData.index < data.index then c.changed + 1 else c.changed }

/-! ## Runs -/

/-- A call of `Authenticate` and the salt that is drawn for it, or new data. -/
inductive ClientOp (X : Type)
  | authenticate (username : String) (password salt : Bytes)
  | install (data : Data X)

/-- The client after it. -/
def ClientOp.step (c : Client X) : ClientOp X → Client X
  | .authenticate username password salt => final (Meta.authenticate K (.ok salt) username password c)
  | .install data => c.install data

/-- The client after all of them. -/
def ClientOp.run (ops : List (ClientOp X)) : Client X := ops.foldl (ClientOp.step K) newClient

/-- The salt and the password of a call. -/
def ClientOp.salted : ClientOp X → Option (Bytes × Bytes)
  | .authenticate _ password salt => some (salt, password)
  | .install _ => none

/-- With the salt of one of the calls, no two passwords of the calls have the same hash. -/
def NoCollision (ops : List (ClientOp X)) : Prop :=
  ∀ a ∈ ops.filterMap ClientOp.salted, ∀ b ∈ ops.filterMap ClientOp.salted,
    K.hashWithSalt a.1 a.2 = K.hashWithSalt a.1 b.2 → a.2 = b.2

/-- No two users of the data have the same name. -/
def Data.UniqueNames (d : Data X) : Prop := (d.users.map UserInfo.name).Nodup

/-! ## Users and their entries -/

/-- With unique names a user is found by its name. -/
theorem Data.user_eq_some_iff {d : Data X} (h : d.UniqueNames) {name : String} {u : UserInfo} :
    d.user name = some u ↔ u ∈ d.users ∧ u.name = name := by
  refine ⟨find?_key, ?_⟩
  rintro ⟨hu, hname⟩
  rcases hf : d.user name with _ | v
  · have hp := List.find?_eq_none.mp hf u hu
    rw [decide_eq_true_eq] at hp
    exact absurd hname hp
  · obtain ⟨hv, hvname⟩ := find?_key hf
    rw [List.inj_on_of_nodup_map h hv hu (hvname.trans hname.symm)]

theorem keepUser_some {authCache newCache : String → Option AuthUser} {u : UserInfo} {name : String}
    {au : AuthUser} (h : keepUser authCache newCache u name = some au) :
    newCache name = some au ∨ (authCache name = some au ∧ u.name = name ∧ au.bhash = u.hash) := by
  rw [keepUser] at h
  rcases hcached : authCache u.name with _ | cached
  · rw [hcached] at h
    exact .inl h
  · rw [hcached] at h
    dsimp only at h
    by_cases hhash : cached.bhash = u.hash
    · rw [if_pos hhash] at h
      by_cases hname : name = u.name
      · rw [hname, Function.update_self] at h
        cases h
        exact .inr ⟨hname ▸ hcached, hname.symm, hhash⟩
      · rw [Function.update_of_ne hname] at h
        exact .inl h
    · rw [if_neg hhash] at h
      exact .inl h

/-- An entry that is kept was there, and is about the hash of a user. -/
theorem foldl_keepUser_some {authCache newCache : String → Option AuthUser} {users : List UserInfo}
    {name : String} {au : AuthUser}
    (h : users.foldl (keepUser authCache) newCache name = some au) :
    newCache name = some au ∨
      (authCache name = some au ∧ ∃ u ∈ users, u.name = name ∧ au.bhash = u.hash) := by
  induction users generalizing newCache with
  | nil => exact .inl h
  | cons u users ih =>
    rw [List.foldl_cons] at h
    rcases ih h with hnew | ⟨hold, v, hv, hname⟩
    · rcases keepUser_some hnew with hnew | ⟨hold, hname⟩
      · exact .inl hnew
      · exact .inr ⟨hold, u, List.mem_cons_self, hname⟩
    · exact .inr ⟨hold, v, List.mem_cons_of_mem u hv, hname⟩

/-! ## The invariant -/

/-- The entry is the salted hash of a password that was used with this salt, and that the hash in
    the entry accepts. -/
def AuthUser.Vouched (calls : List (Bytes × Bytes)) (au : AuthUser) : Prop :=
  ∃ password, (au.salt, password) ∈ calls ∧ au.hash = K.hashWithSalt au.salt password ∧
    K.bcryptAccepts au.bhash password

/-- **An entry of the cache is about the current hash of its user.** -/
structure CacheOK (calls : List (Bytes × Bytes)) (c : Client X) : Prop where
  names : c.cacheData.UniqueNames
  entries : ∀ name au, c.authCache name = some au →
    (∃ user, c.cacheData.user name = some user ∧ au.bhash = user.hash) ∧ au.Vouched K calls

theorem AuthUser.Vouched.mono {calls calls' : List (Bytes × Bytes)} {au : AuthUser}
    (h : au.Vouched K calls) (hsub : calls ⊆ calls') : au.Vouched K calls' := by
  obtain ⟨password, hmem, hhash, haccepts⟩ := h
  exact ⟨password, hsub hmem, hhash, haccepts⟩

theorem cacheOK_newClient : CacheOK K [] (newClient : Client X) := by
  refine ⟨List.nodup_nil, ?_⟩
  intro name au h
  cases h

/-- New data drops every entry that is not about it. -/
theorem CacheOK.install {calls : List (Bytes × Bytes)} {c : Client X} (h : CacheOK K calls c)
    {data : Data X} (hdata : data.UniqueNames) : CacheOK K calls (c.install data) := by
  refine ⟨hdata, fun name au hau => ?_⟩
  rcases foldl_keepUser_some hau with hnone | ⟨hold, u, hu, hname, hhash⟩
  · cases hnone
  · have huser : data.user name = some u := (Data.user_eq_some_iff hdata).mpr ⟨hu, hname⟩
    exact ⟨⟨u, huser, hhash⟩, (h.entries name au hold).2⟩

/-- A call keeps the invariant, whatever its outcome: the entry that it may make is about the hash
    that accepted the password. -/
theorem CacheOK.authenticate {calls : List (Bytes × Bytes)} {c : Client X} (h : CacheOK K calls c)
    (username : String) (password salt : Bytes) :
    CacheOK K (calls ++ [(salt, password)])
      (final (Meta.authenticate K (.ok salt) username password c)) := by
  have hmono : CacheOK K (calls ++ [(salt, password)]) c := by
    refine ⟨h.names, fun name au hau => ?_⟩
    obtain ⟨huser, hvouched⟩ := h.entries name au hau
    exact ⟨huser, hvouched.mono K (List.subset_append_left _ _)⟩
  rw [Meta.authenticate]
  rcases huser : c.cacheData.user username with _ | user
  · exact hmono
  · dsimp only
    split_ifs with hcached haccepts
    · exact hmono
    · -- bcrypt has just accepted the password, and an entry is made of it
      refine ⟨h.names, fun name au hau => ?_⟩
      rw [final_ok, Client.remember] at hau ⊢
      dsimp only at hau ⊢
      by_cases hname : name = username
      · rw [hname, Function.update_self] at hau
        cases hau
        rw [hname]
        refine ⟨⟨user, huser, rfl⟩, password, ?_, rfl, haccepts⟩
        exact List.mem_append_right _ (List.mem_singleton_self _)
      · rw [Function.update_of_ne hname] at hau
        exact hmono.entries name au hau
    · exact hmono

/-- **Every run keeps the invariant**, as long as the names in the data are unique. -/
theorem CacheOK.run (ops : List (ClientOp X))
    (hops : ∀ data, ClientOp.install data ∈ ops → data.UniqueNames) :
    CacheOK K (ops.filterMap ClientOp.salted) (ClientOp.run K ops) := by
  -- from the end: the invariant speaks of the calls so far
  induction ops using List.reverseRecOn with
  | nil => exact cacheOK_newClient K
  | append_singleton ops op ih =>
    have h := ih fun data hdata => hops data (List.mem_append_left _ hdata)
    rw [ClientOp.run, List.foldl_append, List.filterMap_append]
    cases op with
    | authenticate username password salt => exact h.authenticate K username password salt
    | install data =>
      rw [List.filterMap_cons_none rfl, List.filterMap_nil, List.append_nil]
      exact h.install K (hops data (List.mem_append_right _ (List.mem_singleton_self _)))

/-- What the cache answers is what bcrypt would answer. -/
theorem CacheOK.sound {calls : List (Bytes × Bytes)} {c : Client X} (h : CacheOK K calls c)
    {username : String} {password : Bytes} {user : UserInfo}
    (huser : c.cacheData.user username = some user) (hc : c.Remembers K username password)
    (hsha : ∀ a ∈ calls, K.hashWithSalt a.1 a.2 = K.hashWithSalt a.1 password → a.2 = password) :
    K.bcryptAccepts user.hash password = true := by
  obtain ⟨au, hau, hhash⟩ := hc
  obtain ⟨⟨user', huser', hbhash⟩, p, hp, hau', haccepts⟩ := h.entries username au hau
  rw [huser] at huser'
  cases huser'
  have heq : p = password := hsha (au.salt, p) hp (by rw [hhash, hau'])
  rw [← hbhash, ← heq]
  exact haccepts

/-- **`Authenticate` succeeds exactly for the password of the user**, by the data that the client
    has now, whatever was remembered under earlier data. -/
theorem authenticate_iff_bcrypt {ops : List (ClientOp X)}
    (hnames : ∀ data, ClientOp.install data ∈ ops → data.UniqueNames) (hsha : NoCollision K ops)
    (before after : List (ClientOp X)) {username : String} {password salt : Bytes}
    (hops : ops = before ++ .authenticate username password salt :: after) :
    (∃ user c, authenticate K (.ok salt) username password (ClientOp.run K before) = .ok user c)
      ↔ ∃ user ∈ (ClientOp.run K before).cacheData.users,
          user.name = username ∧ K.bcryptAccepts user.hash password = true := by
  subst hops
  have hok := CacheOK.run K before fun data hdata => hnames data (List.mem_append_left _ hdata)
  have hcalls : ∀ a ∈ before.filterMap ClientOp.salted,
      K.hashWithSalt a.1 a.2 = K.hashWithSalt a.1 password → a.2 = password := by
    intro a ha
    have hsub : a ∈ (before ++ .authenticate username password salt :: after).filterMap
        ClientOp.salted := by
      rw [List.filterMap_append]
      exact List.mem_append_left _ ha
    refine hsha a hsub (salt, password) ?_
    rw [List.filterMap_append]
    exact List.mem_append_right _ List.mem_cons_self
  rw [authenticate]
  rcases huser : (ClientOp.run K before).cacheData.user username with _ | user
  · refine iff_of_false ?_ ?_
    · rintro ⟨user, c, h⟩
      cases h
    · rintro ⟨user, hmem, hname, -⟩
      have hfound := (Data.user_eq_some_iff hok.names).mpr ⟨hmem, hname⟩
      rw [huser] at hfound
      cases hfound
  · dsimp only
    obtain ⟨hmem, hname⟩ := (Data.user_eq_some_iff hok.names).mp huser
    split_ifs with hcached haccepts
    · -- the cache answers, and bcrypt would agree
      exact iff_of_true ⟨user, _, rfl⟩
        ⟨user, hmem, hname, hok.sound K huser hcached hcalls⟩
    · exact iff_of_true ⟨user, _, rfl⟩ ⟨user, hmem, hname, haccepts⟩
    · refine iff_of_false ?_ ?_
      · rintro ⟨user', c, h⟩
        cases h
      · rintro ⟨user', hmem', hname', haccepts'⟩
        have hfound := (Data.user_eq_some_iff hok.names).mpr ⟨hmem', hname'⟩
        rw [huser] at hfound
        cases hfound
        exact haccepts haccepts'

end Client

/-- A hash that is told apart from others by its text, and accepts one password. -/
def plainCrypto : Crypto where
  sha256 b := b
  bcryptAccepts hash password := (hash, password) ∈ [("hash1", [1]), ("hash2", [2])]

/-- Data with one user. -/
def oneUser (hash : String) : Data Unit :=
  { newStoreData () with users := [{ name := "alice", hash := hash, admin := false }] }

/-- A password is accepted and remembered, it is changed, and the old one is tried again. -/
def changedPassword : List (ClientOp Unit) :=
  [.install (oneUser "hash1"), .authenticate "alice" [1] [7], .install (oneUser "hash2"),
    .authenticate "alice" [1] [8]]

theorem authenticate_changedPassword :
    NoCollision plainCrypto changedPassword ∧
      ((∃ user c, authenticate plainCrypto (.ok [8]) "alice" [1]
          (ClientOp.run plainCrypto (changedPassword.take 3)) = .ok user c)
        ↔ ∃ user ∈ (ClientOp.run plainCrypto (changedPassword.take 3)).cacheData.users,
            user.name = "alice" ∧ plainCrypto.bcryptAccepts user.hash [1] = true) := by
  have hnames : ∀ data, ClientOp.install data ∈ changedPassword → data.UniqueNames := by
    intro data hdata
    rw [changedPassword] at hdata
    simp only [List.mem_cons, ClientOp.install.injEq, reduceCtorEq, List.not_mem_nil, or_false,
      false_or] at hdata
    rcases hdata with rfl | rfl
    · exact List.nodup_singleton _
    · exact List.nodup_singleton _
  have hsha : NoCollision plainCrypto changedPassword := by
    intro a ha b hb h
    exact List.append_cancel_left h
  exact ⟨hsha, authenticate_iff_bcrypt plainCrypto hnames hsha (changedPassword.take 3) [] rfl⟩

end InfluxCluster.Meta
