/-
  The members of a role (`meta/data.go`, `RoleInfo`).

  `AddUser` appends, so the users stand in the order in which they came.  `RemoveUser` looks for the
  user and then does nothing: the line that would delete is commented out.  `HasUser` is a BINARY
  SEARCH, with the predicate "is this user" that is true at single places.

  So of a sequence of calls the role keeps all additions (`users_run`), and `HasUser` sees of `n`
  users only those on the spine of `n`: the one in the middle, the one in the middle of those after
  it, and so on (`hasUser_iff`).  A user is found if they are at one of these places, removed or not;
  and how many come AFTER them decides about that.

  `HasUser` is right about a user in the two cases of `has_user_right_iff`.
-/
import InfluxCluster.Meta.Data
import InfluxCluster.Lib.SortSearch

namespace InfluxCluster.Meta

open InfluxCluster.Lib

/-! ## The methods -/

namespace RoleInfo

/-- `AddUser`. -/
def addUser (r : RoleInfo) (user : UserInfo) : RoleInfo := { r with users := r.users ++ [user] }

/-- `AddUsers`. -/
def addUsers (r : RoleInfo) (users : List UserInfo) : RoleInfo := users.foldl addUser r

/-- `RemoveUser`. -/
def removeUser (r : RoleInfo) (user : UserInfo) : RoleInfo :=
  match r.users.findIdx? fun usr => usr = user with
  | none => r
  -- "r.Users = append(r.Users[:deleteIndex], r.Users[deleteIndex+1:])" is a comment
  | some _deleteIndex => r

/-- `RemoveUsers`. -/
def removeUsers (r : RoleInfo) (users : List UserInfo) : RoleInfo := users.foldl removeUser r

/-- `HasUser`. -/
def hasUser (r : RoleInfo) (user : UserInfo) : Bool :=
  let res := SortSearch.search r.users.length fun i => r.users[i]? = some user
  res < r.users.length && r.users[res]? = some user

theorem users_addUsers (r : RoleInfo) (users : List UserInfo) :
    (r.addUsers users).users = r.users ++ users := by
  induction users generalizing r with
  | nil => exact (List.append_nil r.users).symm
  | cons user users ih =>
    show ((r.addUser user).addUsers users).users = _
    rw [ih, addUser, List.append_assoc]
    rfl

theorem removeUser_eq (r : RoleInfo) (user : UserInfo) : r.removeUser user = r := by
  rw [removeUser]
  cases r.users.findIdx? fun usr => usr = user with
  | none => rfl
  | some deleteIndex => rfl

theorem removeUsers_eq (r : RoleInfo) (users : List UserInfo) : r.removeUsers users = r := by
  induction users with
  | nil => rfl
  | cons user users ih =>
    show (r.removeUser user).removeUsers users = r
    rw [removeUser_eq, ih]

/-- **`HasUser` sees the users on the spine.** -/
theorem hasUser_iff (r : RoleInfo) (user : UserInfo) :
    r.hasUser user = true ↔ ∃ i ∈ SortSearch.spine r.users.length, r.users[i]? = some user := by
  have h := SortSearch.search_hit_iff (f := fun i => r.users[i]? = some user) r.users.length
  simp only [decide_eq_true_eq] at h
  rw [← h, hasUser]
  simp only [Bool.and_eq_true, decide_eq_true_eq]

end RoleInfo

/-! ## Sequences of calls -/

/-- The calls. -/
inductive RoleOp
  | addUser (user : UserInfo)
  | addUsers (users : List UserInfo)
  | removeUser (user : UserInfo)
  | removeUsers (users : List UserInfo)
  deriving DecidableEq

namespace RoleOp

def step (r : RoleInfo) : RoleOp → RoleInfo
  | .addUser user => r.addUser user
  | .addUsers users => r.addUsers users
  | .removeUser user => r.removeUser user
  | .removeUsers users => r.removeUsers users

/-- The users of the call. -/
def mentioned : RoleOp → List UserInfo
  | .addUser user => [user]
  | .addUsers users => users
  | .removeUser user => [user]
  | .removeUsers users => users

def isAddition : RoleOp → Bool
  | .addUser _ => true
  | .addUsers _ => true
  | .removeUser _ => false
  | .removeUsers _ => false

end RoleOp

/-- The role after the calls, from an empty one. -/
def roleAfter (ops : List RoleOp) : RoleInfo := ops.foldl RoleOp.step { users := [] }

/-- **Membership**: the last call that mentions the user is an addition. -/
def LastAdded (ops : List RoleOp) (user : UserInfo) : Prop :=
  ∃ op, ops.reverse.find? (fun op => user ∈ op.mentioned) = some op ∧ op.isAddition = true

/-- All users that were ever added, in order. -/
def additions (ops : List RoleOp) : List UserInfo :=
  ops.flatMap fun op => if op.isAddition then op.mentioned else []

/-- Among all additions, one of the user is where `HasUser` looks. -/
def OnSpine (ops : List RoleOp) (user : UserInfo) : Prop :=
  ∃ i ∈ SortSearch.spine (additions ops).length, (additions ops)[i]? = some user

theorem users_step (r : RoleInfo) (op : RoleOp) :
    (op.step r).users = r.users ++ if op.isAddition then op.mentioned else [] := by
  cases op with
  | addUser user => rfl
  | addUsers users => exact r.users_addUsers users
  | removeUser user =>
    rw [RoleOp.step, r.removeUser_eq]
    exact (List.append_nil r.users).symm
  | removeUsers users =>
    rw [RoleOp.step, r.removeUsers_eq]
    exact (List.append_nil r.users).symm

theorem users_foldl (ops : List RoleOp) (r : RoleInfo) :
    (ops.foldl RoleOp.step r).users = r.users ++ additions ops := by
  induction ops generalizing r with
  | nil => exact (List.append_nil r.users).symm
  | cons op ops ih =>
    rw [List.foldl_cons, ih, users_step, List.append_assoc]
    rfl

/-- **A role keeps all additions.** -/
theorem users_run (ops : List RoleOp) : (roleAfter ops).users = additions ops := by
  rw [roleAfter, users_foldl]
  rfl

/-- **When `HasUser` is right about a user**: they were added last and are on the spine of all
    additions, or they were not and are not. -/
theorem has_user_right_iff (ops : List RoleOp) (user : UserInfo) :
    ((roleAfter ops).hasUser user = true ↔ LastAdded ops user) ↔
      (LastAdded ops user ∧ OnSpine ops user) ∨ (¬ LastAdded ops user ∧ ¬ OnSpine ops user) := by
  have hhas : (roleAfter ops).hasUser user = true ↔ OnSpine ops user := by
    rw [RoleInfo.hasUser_iff, users_run]
    exact Iff.rfl
  rw [hhas]
  constructor
  · intro h
    by_cases hlast : LastAdded ops user
    · exact Or.inl ⟨hlast, h.mpr hlast⟩
    · exact Or.inr ⟨hlast, fun hspine => hlast (h.mp hspine)⟩
  · rintro (⟨hlast, hspine⟩ | ⟨hlast, hspine⟩)
    · exact iff_of_true hspine hlast
    · exact iff_of_false hspine hlast

/-- Two users. -/
def alice : UserInfo := { name := "alice", hash := "h", admin := false }
def bob : UserInfo := { name := "bob", hash := "h", admin := false }

instance (ops : List RoleOp) (user : UserInfo) : Decidable (LastAdded ops user) :=
  decidable_of_iff
    (((ops.reverse.find? fun op => user ∈ op.mentioned).map RoleOp.isAddition) = some true)
    (by simp [LastAdded])

/-- Alice and bob are added, and alice is not found.  Alice is removed, and found. -/
theorem role_loses_and_keeps :
    ((roleAfter [.addUser alice, .addUser bob]).hasUser alice = false ∧
        LastAdded [.addUser alice, .addUser bob] alice) ∧
      ((roleAfter [.addUser alice, .removeUser alice]).hasUser alice = true ∧
        ¬ LastAdded [.addUser alice, .removeUser alice] alice) := by
  decide

end InfluxCluster.Meta
