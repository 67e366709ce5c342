/-
  `PrecreateShardGroups` (`meta/client.go`): the next shard group, before it is needed.

  The call goes over the databases of the client's copy and their policies, and asks for a group
  right behind the last one of each policy that ends soon.  But `return nil` stands INSIDE the outer
  loop, at the end of its body: the policies of the first database are looked at, and no others.

  One more thing can end it early.  `CreateShardGroup` may return neither a group nor an error
  (`Meta.GroupCreation`), and the message about the new group reads its identifier.

  So all groups that are `needed` are asked for exactly if the first database needs them all, and
  no call but the last is answered with nothing (`precreate_covers_iff`).
-/
import InfluxCluster.Lib.Prog
import InfluxCluster.Meta.ShardGroups

namespace InfluxCluster.Meta

open InfluxCluster.Lib

/-! ## The code -/

/-- A call of `CreateShardGroup`. -/
structure GroupCall where
  database : String
  policy : String
  timestamp : Time
  deriving DecidableEq

/-- A line of the log. -/
inductive PrecreateLine (ε : Type)
  /-- "failed to precreate successive shard group for group …". -/
  | failed (group : UInt64) (err : ε)
  /-- "new shard group … successfully precreated for …". -/
  | created (group : UInt64) (database policy : String)
  deriving DecidableEq

/-- The calls that have been made, and what was logged. -/
structure Precreating (ε : Type) where
  calls : List GroupCall
  log : List (PrecreateLine ε)
  deriving DecidableEq

/-- How the call panics. -/
inductive PrecreatePanic
  /-- There is no `meta.Data`. -/
  | nilData
  /-- `newGroup.ID`, of no group. -/
  | nilGroup
  deriving DecidableEq

/-- What `CreateShardGroup` answers to its first call, its second, and so on. -/
abbrev GroupAnswers (ε : Type) : Type := Nat → Except ε (Option ShardGroupInfo)

section Code

variable {ε X : Type}

/-- `c.CreateShardGroup(database, policy, timestamp)`. -/
def askForGroup (answer : GroupAnswers ε) (call : GroupCall) :
    EStateM PrecreatePanic (Precreating ε) (Except ε (Option ShardGroupInfo)) :=
  fun s => .ok (answer s.calls.length) { s with calls := s.calls ++ [call] }

def logLine (line : PrecreateLine ε) : EStateM PrecreatePanic (Precreating ε) Unit :=
  fun s => .ok () { s with log := s.log ++ [line] }

/-- The group is not deleted, and ends between the two times. -/
def ShardGroupInfo.Ending (fromTime toTime : Time) (g : ShardGroupInfo) : Prop :=
  g.Live ∧ g.endTime < toTime ∧ fromTime < g.endTime

instance (fromTime toTime : Time) (g : ShardGroupInfo) : Decidable (g.Ending fromTime toTime) :=
  inferInstanceAs (Decidable (_ ∧ _ ∧ _))

/-- The body of the inner loop. -/
def precreatePolicy (answer : GroupAnswers ε) (fromTime toTime : Time) (di : DatabaseInfo)
    (rp : RetentionPolicyInfo) : EStateM PrecreatePanic (Precreating ε) Unit :=
  match rp.shardGroups.getLast? with
  | none => pure ()
  | some g =>
    if g.Ending fromTime toTime then do
      let nextShardGroupTime := g.endTime + 1
      let r ← askForGroup answer ⟨di.name, rp.name, nextShardGroupTime⟩
      match r with
      | .error err => logLine (.failed g.id err)
      | .ok none => throw .nilGroup
      | .ok (some newGroup) => logLine (.created newGroup.id di.name rp.name)
    else pure ()

/-- The inner loop. -/
def precreatePolicies (answer : GroupAnswers ε) (fromTime toTime : Time) (di : DatabaseInfo) :
    List RetentionPolicyInfo → EStateM PrecreatePanic (Precreating ε) Unit
  | [] => pure ()
  | rp :: rps => do
    precreatePolicy answer fromTime toTime di rp
    precreatePolicies answer fromTime toTime di rps

/-- `PrecreateShardGroups`, of the client's copy. -/
def precreateShardGroups (answer : GroupAnswers ε) (d : Data X) (fromTime toTime : Time) :
    EStateM PrecreatePanic (Precreating ε) Unit :=
  match d.data with
  | none => throw .nilData
  | some m =>
    match m.databases with
    | [] => pure ()
    -- the loop over the databases returns at the end of its body
    | di :: _ => precreatePolicies answer fromTime toTime di di.retentionPolicies

end Code

/-! ## What is needed -/

/-- The call for a policy whose last group ends between the two times. -/
def neededFor (fromTime toTime : Time) (di : DatabaseInfo) (rp : RetentionPolicyInfo) :
    Option GroupCall :=
  (rp.shardGroups.getLast?.filter fun g => g.Ending fromTime toTime).map fun g =>
    ⟨di.name, rp.name, g.endTime + 1⟩

/-- **A call for each policy, of all databases, whose last group is not deleted and ends between
    the two times: for the time right behind it.** -/
def needed (fromTime toTime : Time) (databases : List DatabaseInfo) : List GroupCall :=
  databases.flatMap fun di => di.retentionPolicies.filterMap (neededFor fromTime toTime di)

/-- The databases of the copy. -/
def Data.databases {X : Type} (d : Data X) : List DatabaseInfo :=
  (d.data.map MetaData.databases).getD []

section Needed

variable {ε X : Type} {answer : GroupAnswers ε} {fromTime toTime : Time} {di : DatabaseInfo}

/-- A policy that needs none is passed over. -/
theorem precreatePolicy_none {rp : RetentionPolicyInfo} (h : neededFor fromTime toTime di rp = none)
    (s : Precreating ε) : precreatePolicy answer fromTime toTime di rp s = .ok () s := by
  rw [precreatePolicy]
  rw [neededFor, Option.map_eq_none_iff] at h
  cases hg : rp.shardGroups.getLast? with
  | none => rfl
  | some g =>
    rw [hg, Option.filter_some] at h
    dsimp only
    rw [if_neg]
    · rfl
    · intro hending
      rw [decide_eq_true hending] at h
      cases h

theorem askForGroup_run (call : GroupCall) (s : Precreating ε) :
    askForGroup answer call s = .ok (answer s.calls.length) { s with calls := s.calls ++ [call] } :=
  rfl

/-- For a policy that needs a group the call is made; it panics if that is answered with nothing. -/
theorem precreatePolicy_asks {rp : RetentionPolicyInfo} {call : GroupCall}
    (h : neededFor fromTime toTime di rp = some call) (s : Precreating ε) :
    (answer s.calls.length = .ok none ∧ precreatePolicy answer fromTime toTime di rp s
        = .error .nilGroup { s with calls := s.calls ++ [call] }) ∨
      (answer s.calls.length ≠ .ok none ∧ ∃ line, precreatePolicy answer fromTime toTime di rp s
        = .ok () ⟨s.calls ++ [call], s.log ++ [line]⟩) := by
  obtain ⟨g, hg, rfl⟩ := Option.map_eq_some_iff.mp h
  obtain ⟨hlast, hending⟩ := Option.filter_eq_some_iff.mp hg
  rw [precreatePolicy, hlast]
  dsimp only
  rw [if_pos (of_decide_eq_true hending), bind_ok (askForGroup_run _ s)]
  rcases answer s.calls.length with err | _ | newGroup
  · exact .inr ⟨nofun, _, rfl⟩
  · exact .inl ⟨rfl, rfl⟩
  · exact .inr ⟨nofun, _, rfl⟩

/-! ## What is asked for -/

/-- The calls made for the policies are the first of those that are needed, and all of them exactly
    if none but the last is answered with nothing.

    By induction on the policies, for every list of calls that have been made before. -/
theorem calls_precreatePolicies (answer : GroupAnswers ε) (fromTime toTime : Time)
    (di : DatabaseInfo) (rps : List RetentionPolicyInfo) : ∀ s : Precreating ε,
    ∃ made, (final (precreatePolicies answer fromTime toTime di rps s)).calls = s.calls ++ made ∧
      made <+: rps.filterMap (neededFor fromTime toTime di) ∧
      (made = rps.filterMap (neededFor fromTime toTime di) ↔
        ∀ k, k + 1 < (rps.filterMap (neededFor fromTime toTime di)).length →
          answer (s.calls.length + k) ≠ .ok none) := by
  induction rps with
  | nil =>
    intro s
    exact ⟨[], (List.append_nil _).symm, List.prefix_rfl, fun _ k hk => absurd hk (Nat.not_lt_zero _),
      fun _ => rfl⟩
  | cons rp rps ih =>
    intro s
    rw [precreatePolicies]
    cases hneeded : neededFor fromTime toTime di rp with
    | none =>
      rw [bind_ok (precreatePolicy_none hneeded s), List.filterMap_cons_none hneeded]
      exact ih s
    | some call =>
      rw [List.filterMap_cons_some hneeded]
      rcases precreatePolicy_asks hneeded s with ⟨hnothing, hrun⟩ | ⟨hanswer, line, hrun⟩
      · -- the panic hides what is needed behind this policy, if anything is
        rw [bind_error hrun]
        refine ⟨[call], rfl, List.cons_prefix_cons.mpr ⟨rfl, List.nil_prefix⟩, ?_⟩
        cases hrest : rps.filterMap (neededFor fromTime toTime di) with
        | nil => exact iff_of_true rfl fun k hk => absurd hk (by simp)
        | cons call' calls =>
          refine iff_of_false (by simp) fun h => h 0 (by simp) ?_
          exact hnothing
      · rw [bind_ok hrun]
        obtain ⟨made, hcalls, hprefix, hiff⟩ := ih ⟨s.calls ++ [call], s.log ++ [line]⟩
        refine ⟨call :: made, ?_, List.cons_prefix_cons.mpr ⟨rfl, hprefix⟩, ?_⟩
        · rw [hcalls, List.append_assoc]
          rfl
        · rw [List.cons.injEq, and_iff_right rfl, hiff, List.length_append, List.length_singleton,
            List.length_cons]
          constructor
          · rintro h (_ | k) hk
            · exact hanswer
            · have hk' := h k (by omega)
              rwa [Nat.add_assoc, Nat.add_comm 1 k] at hk'
          · intro h k hk
            have hk' := h (k + 1) (by omega)
            rwa [Nat.add_assoc, Nat.add_comm 1 k]

end Needed

/-- **When precreation covers every policy.**  Of a copy of the metadata, and of what the calls are
    answered, `PrecreateShardGroups` asks for exactly the groups that are needed, if and only if no
    policy behind those of the first database needs one, and no call but the last is answered with
    neither a group nor an error. -/
theorem precreate_covers_iff {ε X : Type} (answer : GroupAnswers ε) (d : Data X)
    (fromTime toTime : Time) :
    (final (precreateShardGroups answer d fromTime toTime ⟨[], []⟩)).calls
        = needed fromTime toTime d.databases
      ↔ needed fromTime toTime d.databases.tail = [] ∧
        ∀ k, k + 1 < (needed fromTime toTime d.databases).length → answer k ≠ .ok none := by
  rw [precreateShardGroups, Data.databases]
  cases d.data with
  | none => exact iff_of_true rfl ⟨rfl, fun k hk => absurd hk (Nat.not_lt_zero _)⟩
  | some m =>
    dsimp only [Option.map_some, Option.getD_some]
    cases m.databases with
    | nil => exact iff_of_true rfl ⟨rfl, fun k hk => absurd hk (Nat.not_lt_zero _)⟩
    | cons di dis =>
      obtain ⟨made, hcalls, hprefix, hiff⟩ :=
        calls_precreatePolicies answer fromTime toTime di di.retentionPolicies ⟨[], []⟩
      simp only [List.nil_append, List.length_nil, Nat.zero_add] at hcalls hiff
      rw [hcalls, List.tail_cons, needed, List.flatMap_cons, ← needed]
      constructor
      · intro hall
        -- what was made is no longer than what the first database needs
        have hlen := hprefix.length_le
        rw [hall, List.length_append] at hlen
        have hnone : needed fromTime toTime dis = [] := List.length_eq_zero_iff.mp (by omega)
        rw [hnone, List.append_nil] at hall ⊢
        exact ⟨rfl, hiff.mp hall⟩
      · rintro ⟨hnone, hanswers⟩
        rw [hnone, List.append_nil] at hanswers ⊢
        exact hiff.mpr hanswers

/-- A database with one policy, whose only group ends at the time. -/
def endingDatabase (name : String) (endTime : Time) : DatabaseInfo :=
  { name := name
    retentionPolicies := [
      { name := "rp", replicaN := 1, duration := 0, shardGroupDuration := 10
        shardGroups := [
          { id := 1, startTime := endTime - 10, endTime := endTime, deletedAt := 0, shards := [] }] }] }

/-- Two of them, the first of which has ended long ago. -/
def twoDatabases : Data Unit :=
  { data := some
      { term := 1, index := 1, clusterID := 1
        databases := [endingDatabase "db0" 20, endingDatabase "db1" 150]
        maxShardGroupID := 2, maxShardID := 0, rest := () }
    metaNodes := [], dataNodes := [], users := [], roles := [], maxNodeID := 0 }

/-- **The second database is not looked at**, although a group of its ends between the times. -/
theorem second_database_is_passed_over :
    needed 100 200 twoDatabases.databases = [⟨"db1", "rp", 151⟩] ∧
      ∀ answer : GroupAnswers Unit,
        precreateShardGroups answer twoDatabases 100 200 ⟨[], []⟩ = .ok () ⟨[], []⟩ :=
  ⟨by decide, fun _ => rfl⟩

end InfluxCluster.Meta
