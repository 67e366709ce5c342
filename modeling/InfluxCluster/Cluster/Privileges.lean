/-
  `GRANT` and `REVOKE` that are executed at once (`cluster/statement_executor.go`:
  `executeGrantStatement`, `executeRevokeStatement`).

  `GRANT` is one call: the privilege is SET, and replaces what the user had.  `REVOKE` of one of the
  two privileges is two calls: the user's privilege is read, the revoked one is cleared in what was
  read, and the rest is set.  Nothing holds the two together, and the second call sets BOTH
  privileges.  What another statement has made of the other one in between is undone: it is there
  again after it was revoked, or gone after it was granted.

  The specification is the plain one, every statement at once where its value is set.  A run agrees
  with it, from its beginning to its end, exactly if each `REVOKE` finds the privilege that it does
  NOT revoke as it was when it read (`revokes_atomic_iff`).  Calls may fail, and a call that sets a
  privilege may fail after it has.
-/
import InfluxCluster.Cluster.Statements

namespace InfluxCluster.Cluster.Statements

open InfluxCluster.Lib

section Privileges

variable {M T Src C : Type} (P : Printer) (Q : Influxql C) (svc : Services M T Src C)

/-- The metadata keep the privileges of this user on this database: what `UserPrivilege` reads is
    what there is, `SetPrivilege` sets it or leaves it alone, whatever it answers, and that of
    another user or on another database leaves it alone. -/
structure Keeps (user on : String) (view : M → Privilege) : Prop where
  read : ∀ m p, svc.userPrivilege m user on = .ok p → p = view m
  set : ∀ m p, view (svc.change (.setPrivilege user on p) m).2 = p ∨
    view (svc.change (.setPrivilege user on p) m).2 = view m
  other : ∀ m user' on' p, (user', on') ≠ (user, on) →
    view (svc.change (.setPrivilege user' on' p) m).2 = view m

/-- `GRANT` or `REVOKE` comes, or one of them makes its next call. -/
inductive PrivilegeOp
  | grant (user on : String) (privilege : Privilege)
  | revoke (user on : String) (privilege : Privilege)
  | next (i : Nat)
  deriving DecidableEq

/-- The step of the executor. -/
def PrivilegeOp.op : PrivilegeOp → Op Src C
  | .grant user on privilege => .begin "" false (.grant user on privilege)
  | .revoke user on privilege => .begin "" false (.revoke user on privilege)
  | .next i => .next i

/-- The statement is about to read the privilege of this user on this database. -/
def Session.reads (user on : String) (x : Session Src C) : Bool :=
  match x.plan with
  | .userPrivilege user' on' _ => (user', on') = (user, on)
  | _ => false

/-- The value that a statement is about to set for this user on this database. -/
def Session.sets (user on : String) (x : Session Src C) : Option Privilege :=
  match x.plan with
  | .change (.setPrivilege user' on' p) _ => if (user', on') = (user, on) then some p else none
  | _ => none

/-- What a statement makes of the user's privilege, done at once. -/
def Statement.effect (p : Privilege) : Statement Src C → Privilege
  | .grant _ _ q => q
  | .revoke _ _ r => p &&& ~~~r
  | _ => p

/-- What a run is watched for: the specification of the user's privilege, and what the user had when
    each statement read it. -/
structure Watched (M T Src C : Type) where
  state : State M T Src C
  ideal : Privilege
  seen : Nat → Privilege

/-- Nothing is executed yet. -/
def Watched.start (view : M → Privilege) (m : M) (t : T) : Watched M T Src C :=
  { state := { metadata := m, store := t, sessions := [] }, ideal := view m, seen := fun _ => view m }

section Watching

variable (user on : String) (view : M → Privilege)

/-- The next call of the statement sets its value for the user. -/
def Session.takesEffect (m : M) (t : T) (x : Session Src C) : Prop :=
  x.sets user on = some (view (x.next svc m t).1)

instance (m : M) (t : T) (x : Session Src C) : Decidable (x.takesEffect svc user on view m t) :=
  inferInstanceAs (Decidable (_ = _))

/-- The specification: a statement takes effect where its value is set. -/
def PrivilegeOp.ideal (s : Watched M T Src C) : PrivilegeOp → Privilege
  | .grant _ _ _ | .revoke _ _ _ => s.ideal
  | .next i =>
    match s.state.sessions[i]? with
    | none => s.ideal
    | some x =>
      if x.takesEffect svc user on view s.state.metadata s.state.store then x.stmt.effect s.ideal
      else s.ideal

/-- What is noted when a statement reads. -/
def PrivilegeOp.seen (s : Watched M T Src C) : PrivilegeOp → Nat → Privilege
  | .grant _ _ _ | .revoke _ _ _ => s.seen
  | .next i =>
    match s.state.sessions[i]? with
    | none => s.seen
    | some x => if x.reads user on then Function.update s.seen i (view s.state.metadata) else s.seen

/-- One step, watched. -/
def PrivilegeOp.step (s : Watched M T Src C) (op : PrivilegeOp) : Option (Watched M T Src C) :=
  (op.op.step P Q svc s.state).map fun s' =>
    { state := s', ideal := op.ideal svc user on view s, seen := op.seen user on view s }

/-- A `REVOKE` finds the privilege that it does not revoke as it has seen it. -/
def Statement.Undisturbed (seen now : Privilege) : Statement Src C → Prop
  | .revoke _ _ r => seen &&& ~~~r = now &&& ~~~r
  | _ => True

/-- **No `REVOKE` undoes anything by this step**: if it is the one that sets the value of a `REVOKE`,
    the other privilege is as the statement has read it. -/
def PrivilegeOp.Undisturbed (s : Watched M T Src C) : PrivilegeOp → Prop
  | .grant _ _ _ | .revoke _ _ _ => True
  | .next i =>
    ∀ x, s.state.sessions[i]? = some x →
      x.takesEffect svc user on view s.state.metadata s.state.store →
        x.stmt.Undisturbed (s.seen i) (view s.state.metadata)

end Watching

variable {P Q svc}

/-! ## What is left of a statement -/

/-- The value that a `GRANT` or a `REVOKE` sets, once it has seen this. -/
inductive Statement.Sets (seen : Privilege) : Statement Src C → Privilege → Prop
  | grant (user on : String) (p : Privilege) : Sets seen (.grant user on p) p
  | revoke (user on : String) (r : Privilege) : Sets seen (.revoke user on r) (seen &&& ~~~r)

/-- **The value agrees with the specification exactly if the statement was left undisturbed.** -/
theorem Statement.Sets.eq_effect_iff {stmt : Statement Src C} {seen p : Privilege}
    (h : stmt.Sets seen p) (now : Privilege) : p = stmt.effect now ↔ stmt.Undisturbed seen now := by
  cases h with
  | grant user on p => exact iff_of_true rfl trivial
  | revoke user on r => exact Iff.rfl

/-- What is left of the plan of a `GRANT` or a `REVOKE`, which has seen this of the user. -/
inductive Session.Left (user on : String) (seen : Privilege) (x : Session Src C) : Prop
  | done (hplan : x.plan = .finish [])
  | setting (user' on' : String) (p : Privilege)
      (hplan : x.plan = .change (.setPrivilege user' on' p) (.finish []))
      (hsets : (user', on') = (user, on) → x.stmt.Sets seen p)
  | reading (user' on' : String) (r : Privilege) (hstmt : x.stmt = .revoke user' on' r)
      (hplan : x.plan = .userPrivilege user' on' fun p =>
        .change (.setPrivilege user' on' (p &&& ~~~r)) (.finish []))

/-- Clearing all privileges leaves none. -/
theorem clear_all (p : Privilege) : p &&& ~~~allPrivileges = noPrivileges := by
  revert p
  decide

/-- A statement that has just come. -/
def Session.fresh (P : Printer) (Q : Influxql C) (stmt : Statement Src C) : Session Src C :=
  { readOnly := false, stmt := stmt, plan := stmt.plan P Q "", events := [], results := [],
    ended := none }

theorem left_grant (user on : String) (seen : Privilege) (user' on' : String) (p : Privilege) :
    (Session.fresh P Q (.grant user' on' p : Statement Src C)).Left user on seen :=
  .setting user' on' p rfl fun _ => .grant user' on' p

theorem left_revoke (user on : String) (seen : Privilege) (user' on' : String) (r : Privilege) :
    (Session.fresh P Q (.revoke user' on' r : Statement Src C)).Left user on seen := by
  by_cases hall : r = allPrivileges
  · refine .setting user' on' noPrivileges (if_neg (not_not_intro hall)) fun _ => ?_
    have hnone : noPrivileges = seen &&& ~~~r := hall ▸ (clear_all seen).symm
    rw [hnone]
    exact .revoke user' on' r
  · exact .reading user' on' r rfl (if_pos hall)

/-- A statement that goes on after a call goes on with the rest of its plan. -/
theorem Session.plan_after {x : Session Src C} {e : Event Src C} {err : Option String}
    {next : Plan Src C} (h : (x.after e err next).ended = none) :
    (x.after e err next).plan = next ∧ (x.after e err next).stmt = x.stmt := by
  cases err with
  | none => exact ⟨rfl, rfl⟩
  | some text => cases h

section Step

variable {user on : String} {view : M → Privilege}

/-- **One call of a `GRANT` or a `REVOKE`** leaves a plan of one, which goes on with what was seen. -/
theorem Session.Left.next {x : Session Src C} {seen : Privilege} (h : x.Left user on seen)
    (hkeeps : Keeps svc user on view) (m : M) (t : T)
    (hrun : (x.next svc m t).2.2.ended = none) :
    (x.next svc m t).2.2.Left user on (if x.reads user on then view m else seen) := by
  rw [Session.next] at hrun ⊢
  cases h with
  | done hplan =>
    rw [hplan] at hrun
    cases hrun
  | setting user' on' p hplan hsets =>
    rw [hplan] at hrun ⊢
    exact .done (Session.plan_after hrun).1
  | reading user' on' r hstmt hplan =>
    rw [hplan] at hrun ⊢
    dsimp only at hrun ⊢
    cases hread : svc.userPrivilege m user' on' with
    | error text =>
      rw [hread] at hrun
      cases hrun
    | ok p =>
      refine .setting user' on' (p &&& ~~~r) rfl fun hsame => ?_
      cases hsame
      rw [Session.reads, hplan, if_pos (decide_eq_true rfl), hkeeps.read m p hread]
      show Statement.Sets _ x.stmt _
      rw [hstmt]
      exact .revoke user on r

/-- The value that is set is one that the statement sets. -/
theorem Session.Left.sets {x : Session Src C} {seen p : Privilege} (h : x.Left user on seen)
    (hp : x.sets user on = some p) : x.stmt.Sets seen p := by
  rw [Session.sets] at hp
  cases h with
  | done hplan =>
    rw [hplan] at hp
    cases hp
  | setting user' on' p' hplan hsets =>
    rw [hplan] at hp
    obtain ⟨hsame, heq⟩ := Option.ite_none_right_eq_some.mp hp
    cases heq
    exact hsets hsame
  | reading user' on' r hstmt hplan =>
    rw [hplan] at hp
    cases hp

/-- A call that does not set the value leaves the user alone. -/
theorem Session.Left.unchanged {x : Session Src C} {seen : Privilege} (h : x.Left user on seen)
    (hkeeps : Keeps svc user on view) {m : M} {t : T}
    (hnot : ¬ x.takesEffect svc user on view m t) : view (x.next svc m t).1 = view m := by
  rw [Session.takesEffect, Session.sets, Session.next] at hnot
  rw [Session.next]
  cases h with
  | done hplan => rw [hplan]
  | setting user' on' p hplan hsets =>
    rw [hplan] at hnot ⊢
    dsimp only at hnot ⊢
    by_cases hsame : (user', on') = (user, on)
    · cases hsame
      rw [if_pos rfl] at hnot
      exact (hkeeps.set m p).resolve_left fun heq => hnot (congrArg some heq.symm)
    · exact hkeeps.other m user' on' p hsame
  | reading user' on' r hstmt hplan =>
    rw [hplan]
    dsimp only
    cases svc.userPrivilege m user' on' <;> rfl

/-- **What holds all along**: every statement that goes on is a `GRANT` or a `REVOKE`, with what it has
    seen. -/
def Watched.Followed (user on : String) (s : Watched M T Src C) : Prop :=
  ∀ (i : Nat) (x : Session Src C), s.state.sessions[i]? = some x → x.ended = none →
    x.Left user on (s.seen i)

/-- One more statement. -/
theorem Watched.Followed.begin {s : Watched M T Src C} (h : s.Followed user on) {y : Session Src C}
    (hy : ∀ seen, y.Left user on seen) (ideal : Privilege) :
    ({ state := { s.state with sessions := s.state.sessions ++ [y] }, ideal := ideal,
       seen := s.seen } : Watched M T Src C).Followed user on := by
  intro i x hi hrun
  rcases lt_or_ge i s.state.sessions.length with hlt | hge
  · rw [List.getElem?_append_left hlt] at hi
    exact h i x hi hrun
  · rw [List.getElem?_append_right hge] at hi
    rw [List.mem_singleton.mp (List.mem_of_getElem? hi)]
    exact hy _

theorem followed_step (hkeeps : Keeps svc user on view) {op : PrivilegeOp}
    {s s' : Watched M T Src C} (h : s.Followed user on)
    (hstep : op.step P Q svc user on view s = some s') : s'.Followed user on := by
  obtain ⟨t, ht, rfl⟩ := Option.map_eq_some_iff.mp hstep
  cases op with
  | grant user' on' p =>
    cases ht
    exact h.begin (fun seen => left_grant user on seen user' on' p) _
  | revoke user' on' r =>
    cases ht
    exact h.begin (fun seen => left_revoke user on seen user' on' r) _
  | next i =>
    obtain ⟨x, hi, hrun, rfl⟩ := Op.step_next ht
    intro j y hj hrunj
    dsimp only at hj ⊢
    rw [PrivilegeOp.seen, hi]
    dsimp only
    by_cases hij : i = j
    · subst hij
      rw [List.getElem?_set_self (List.getElem?_eq_some_iff.mp hi).1] at hj
      cases hj
      have hnext := (h i x hi hrun).next hkeeps s.state.metadata s.state.store hrunj
      by_cases hreads : x.reads user on
      · rw [if_pos hreads] at hnext ⊢
        rw [Function.update_self]
        exact hnext
      · rw [if_neg hreads] at hnext ⊢
        exact hnext
    · rw [List.getElem?_set_ne hij] at hj
      have hleft := h j y hj hrunj
      split
      · rw [Function.update_of_ne (Ne.symm hij)]
        exact hleft
      · exact hleft

/-- **A step agrees with the specification exactly if it undoes nothing.** -/
theorem agree_step (hkeeps : Keeps svc user on view) {s s' : Watched M T Src C} {op : PrivilegeOp}
    (h : s.Followed user on) (hagree : view s.state.metadata = s.ideal)
    (hstep : op.step P Q svc user on view s = some s') :
    view s'.state.metadata = s'.ideal ↔ op.Undisturbed svc user on view s := by
  obtain ⟨t, ht, rfl⟩ := Option.map_eq_some_iff.mp hstep
  cases op with
  | grant user' on' p =>
    cases ht
    exact iff_of_true hagree trivial
  | revoke user' on' r =>
    cases ht
    exact iff_of_true hagree trivial
  | next i =>
    obtain ⟨x, hi, hrun, rfl⟩ := Op.step_next ht
    have hleft := h i x hi hrun
    dsimp only
    rw [PrivilegeOp.ideal, hi, ← hagree]
    dsimp only
    by_cases htakes : x.takesEffect svc user on view s.state.metadata s.state.store
    · rw [if_pos htakes, (hleft.sets htakes).eq_effect_iff]
      refine ⟨fun hundisturbed y hy _ => ?_, fun hundisturbed => hundisturbed x hi htakes⟩
      cases hi.symm.trans hy
      exact hundisturbed
    · rw [if_neg htakes]
      refine iff_of_true (hleft.unchanged hkeeps htakes) fun y hy htakes' => ?_
      cases hi.symm.trans hy
      exact absurd htakes' htakes

end Step

end Privileges

/-- The metadata are the privilege of one user on one database; nobody may set another one. -/
def onePrivilege : Services Privilege Unit Unit Unit where
  change c m :=
    match c with
    | .setPrivilege "jane" "db" p => (none, p)
    | _ => (some "user not found", m)
  database _ _ := none
  userPrivilege m _ _ := .ok m
  catalog _ :=
    { databases := [], users := [], userPrivileges := fun _ => .ok [], diagnostics := .ok [],
      statistics := .ok [] }
  delete _ t := (none, t)
  writeInto _ _ mt := (none, mt)

theorem keeps_onePrivilege : Keeps onePrivilege "jane" "db" id where
  read m p h := (Except.ok.inj h).symm
  set m p := .inl rfl
  other m user on p hne := by
    show id (Services.change onePrivilege (.setPrivilege user on p) m).2 = id m
    unfold onePrivilege
    dsimp only
    split
    · next heq =>
      cases heq
      exact absurd rfl hne
    · rfl

/-- Two statements that have both read before either has set its value. -/
def readFirst (a b : PrivilegeOp) : List PrivilegeOp :=
  [a, b, .next 0, .next 1, .next 0, .next 1]

-- a `GRANT ALL` between the two calls of a `REVOKE READ` is undone: writing should be left
example : ∃ s ∈ [PrivilegeOp.revoke "jane" "db" 1, .next 0, .grant "jane" "db" 3, .next 1,
      .next 0].foldlM
    (PrivilegeOp.step plainPrinter noConditions onePrivilege "jane" "db" id) (.start id 1 ()),
    s.state.metadata = 0 ∧ s.ideal = 2 := by decide +kernel

end InfluxCluster.Cluster.Statements
