/-
  Does a point land in a group that contains its time?  (`cluster/points_writer.go`, `MapShards`;
  `meta/client.go` and `meta/data.go`, `CreateShardGroup`.)

  `MapShards` asks for the group of the TRUNCATED time of a point.  A group that is made for it lasts
  from there for the duration of the policy's groups, and contains the point.  But a group that was
  there already may have been made under ANOTHER duration, and end between the two times.  The point
  goes to it all the same, and the write is a success (`point_misses_window`).

  It does not happen exactly if each group of the policy that contains the truncated time of a point
  also ends after the point (`points_in_window_iff`).  So it does not happen as long as the duration
  of the policy is never changed (`endsAfter_of_policyOK`).

  `directClient` is `Client` with a copy of the metadata that is that of the servers.  The group that
  it finds is looked for by the embedded package, and the group that its command makes is made by
  it: both are parameters.
-/
import InfluxCluster.Cluster.MapShards
import InfluxCluster.Meta.GroupCreation

namespace InfluxCluster.Cluster

open InfluxCluster.Lib InfluxCluster.Meta

/-! ## What is assumed, and what is asked -/

/-- **The group is one for the time**: it is not deleted, contains the time, and has shards.  It was
    there already, or was made for the time. -/
structure Issued (rp : RetentionPolicyInfo) (t : Moment) (sg : ShardGroupInfo) : Prop where
  covers : sg.Covers t.instant
  shards : sg.shards ≠ []
  known : sg ∈ rp.shardGroups ∨ sg.startTime = truncate t.instant rp.shardGroupDuration ∧
    sg.endTime = truncate t.instant rp.shardGroupDuration + rp.shardGroupDuration

section Window

variable {ε σ P : Type} [Point P]

/-- The client has the policy, and a group for the truncated time of each point. -/
def MetaClient.Serves (C : MetaClient ε σ) (wp : WritePointsRequest P) (rp : RetentionPolicyInfo)
    (s : σ) : Prop :=
  ∃ s₁, C.retentionPolicy wp.database wp.retentionPolicy s = .ok (some rp) s₁ ∧
    C.Answers wp.database wp.retentionPolicy
      (fun t => ∃ p ∈ wp.points, rangeOf rp.shardGroupDuration p = t) (Issued rp) s₁

/-- **Every point lands in the right window**: it is in the list of a shard of the group that was
    found for it, and the group contains its time. -/
def InWindow (C : MetaClient ε σ) (shardFor : ShardFor) (order : List Moment → List Moment)
    (wp : WritePointsRequest P) (s : σ) : Prop :=
  ∃ rp timeRanges mapping s', shardGroupsFor C order wp s = .ok (rp, timeRanges) s' ∧
    mapShards C shardFor order wp s = .ok mapping s' ∧
    ∀ p ∈ wp.points, ∃ sg sh ps,
      timeRanges.lookup (rangeOf rp.shardGroupDuration p) = some (some sg) ∧
      shardFor sg (Point.hashID p) = some sh ∧ mapping.points.lookup sh.id = some ps ∧ p ∈ ps ∧
      sg.startTime ≤ (Point.time p).instant ∧ (Point.time p).instant < sg.endTime

/-- The groups of the policy that contain the truncated time of a point end after the point. -/
def EndsAfter (rp : RetentionPolicyInfo) (points : List P) : Prop :=
  ∀ p ∈ points, ∀ sg ∈ rp.shardGroups, sg.shards ≠ [] →
    sg.Covers (truncate (Point.time p).instant rp.shardGroupDuration) →
    (Point.time p).instant < sg.endTime

variable {C : MetaClient ε σ} {shardFor : ShardFor} {order : List Moment → List Moment}
  {wp : WritePointsRequest P} {rp : RetentionPolicyInfo} {s : σ}

/-! ## The points are in the window -/

/-- A group for the truncated time contains the point, if it ends after it. -/
theorem Issued.window {p : P} {sg : ShardGroupInfo}
    (h : Issued rp (rangeOf rp.shardGroupDuration p) sg)
    (hends : sg ∈ rp.shardGroups → (Point.time p).instant < sg.endTime) :
    sg.startTime ≤ (Point.time p).instant ∧ (Point.time p).instant < sg.endTime := by
  obtain ⟨⟨-, hstart, hend⟩, -, hknown⟩ := h
  refine ⟨Int.le_trans hstart (truncate_le_self _ _), ?_⟩
  rcases hknown with hmem | ⟨-, hnew⟩
  · exact hends hmem
  · -- the group was made for the time: it lasts for the duration, which is one
    rw [show (rangeOf rp.shardGroupDuration p).instant
      = truncate (Point.time p).instant rp.shardGroupDuration from rfl, truncate_truncate] at hnew
    rw [hnew] at hend ⊢
    have hpos : 0 < rp.shardGroupDuration := by
      have hlt : truncate (Point.time p).instant rp.shardGroupDuration
          < truncate (Point.time p).instant rp.shardGroupDuration + rp.shardGroupDuration := hend
      omega
    exact lt_truncate_add hpos

theorem MetaClient.Serves.inWindow (hfor : shardFor.Lawful) (horder : ∀ l, (order l).Perm l)
    (hends : EndsAfter rp wp.points) (h : C.Serves wp rp s) : InWindow C shardFor order wp s := by
  obtain ⟨s₁, hrp, hanswers⟩ := h
  obtain ⟨timeRanges, s', hgroups, hfound⟩ := shardGroupsFor_ok horder hrp hanswers
  -- each point has a shard
  have hshard : ∀ p : P, ∃ sh, p ∈ wp.points →
      pointShard shardFor rp.shardGroupDuration timeRanges p = some sh := by
    intro p
    by_cases hp : p ∈ wp.points
    · obtain ⟨sg, hlookup, hissued⟩ := hfound p hp
      obtain ⟨sh, -, hsh⟩ := hfor sg (Point.hashID p) hissued.shards
      refine ⟨sh, fun _ => ?_⟩
      rw [pointShard, hlookup]
      exact hsh
    · exact ⟨⟨0, []⟩, fun hp' => absurd hp' hp⟩
  choose shard hshard using hshard
  refine ⟨rp, timeRanges, ShardMapping.empty.mapAll shard wp.points, s', hgroups, ?_,
    fun p hp => ?_⟩
  · rw [mapShards, bind_ok hgroups]
    exact mapPoints_ok wp.points s' _ hshard
  · obtain ⟨sg, hlookup, hissued⟩ := hfound p hp
    have hsh := hshard p hp
    rw [pointShard, hlookup] at hsh
    have hends' : sg ∈ rp.shardGroups → (Point.time p).instant < sg.endTime :=
      fun hmem => hends p hp sg hmem hissued.shards hissued.covers
    obtain ⟨ps, hps, hmem⟩ := mem_mapAll shard hp
    exact ⟨sg, shard p, ps, hlookup, hsh, hps, hmem, hissued.window hends'⟩

/-! ## A client that returns the group that ends too early -/

/-- A group that is made for the time. -/
def freshGroup (rp : RetentionPolicyInfo) (t : Moment) : ShardGroupInfo :=
  { id := 0
    startTime := truncate t.instant rp.shardGroupDuration
    endTime := truncate t.instant rp.shardGroupDuration + rp.shardGroupDuration
    deletedAt := 0
    shards := [{ id := 0, owners := [] }] }

/-- A client that returns the group for every time that it contains, and makes groups for the
    others. -/
def clinging (rp : RetentionPolicyInfo) (sg : ShardGroupInfo) : MetaClient Unit Unit where
  retentionPolicy _ _ s := .ok (some rp) s
  createShardGroup _ _ t s := .ok (some (if sg.Covers t.instant then sg else freshGroup rp t)) s

theorem freshGroup_issued (hpos : 0 < rp.shardGroupDuration) (t : Moment) :
    Issued rp t (freshGroup rp t) where
  covers := ⟨rfl, truncate_le_self _ _, lt_truncate_add hpos⟩
  shards := List.cons_ne_nil _ _
  known := .inr ⟨rfl, rfl⟩

theorem clinging_serves (hpos : 0 < rp.shardGroupDuration) {sg : ShardGroupInfo}
    (hmem : sg ∈ rp.shardGroups) (hshards : sg.shards ≠ []) : (clinging rp sg).Serves wp rp () := by
  refine ⟨(), rfl, fun _ => True, trivial, fun s _ t _ => ⟨_, s, rfl, trivial, ?_⟩⟩
  split_ifs with hcovers
  · exact ⟨hcovers, hshards, .inl hmem⟩
  · exact freshGroup_issued hpos t

/-- The group that it returns for the truncated time of a point. -/
theorem clinging_group (horder : ∀ l, (order l).Perm l) {sg : ShardGroupInfo} {p : P}
    (hp : p ∈ wp.points)
    (hcovers : sg.Covers (truncate (Point.time p).instant rp.shardGroupDuration)) :
    ∃ timeRanges, shardGroupsFor (clinging rp sg) order wp () = .ok (rp, timeRanges) () ∧
      timeRanges.lookup (rangeOf rp.shardGroupDuration p) = some (some sg) := by
  have hanswers : (clinging rp sg).Answers wp.database wp.retentionPolicy
      (fun t => ∃ p ∈ wp.points, rangeOf rp.shardGroupDuration p = t)
      (fun t answer => sg.Covers t.instant → answer = sg) () :=
    ⟨fun _ => True, trivial, fun s _ t _ => ⟨_, s, rfl, trivial, fun h => if_pos h⟩⟩
  obtain ⟨timeRanges, s', hgroups, hfound⟩ := shardGroupsFor_ok (s := ()) horder rfl hanswers
  obtain ⟨answer, hlookup, hanswer⟩ := hfound p hp
  refine ⟨timeRanges, hgroups, ?_⟩
  rw [hlookup, hanswer hcovers]

/-- **Points land in the right window**, whatever the client, exactly if each group of the policy
    that contains the truncated time of a point ends after the point.  The client is assumed to
    return, for the truncated time of each point, a group of the policy or one that is made for the
    time, that is not deleted, contains the time and has shards. -/
theorem points_in_window_iff (hfor : shardFor.Lawful) (horder : ∀ l, (order l).Perm l)
    (wp : WritePointsRequest P) (rp : RetentionPolicyInfo) :
    (∀ (ε σ : Type) (C : MetaClient ε σ) (s : σ), C.Serves wp rp s →
      InWindow C shardFor order wp s) ↔ EndsAfter rp wp.points := by
  constructor
  · intro h p hp sg hmem hshards hcovers
    by_contra hlate
    -- the truncated time is another one than that of the point
    have hpos : 0 < rp.shardGroupDuration := by
      by_contra hneg
      have hsame : truncate (Point.time p).instant rp.shardGroupDuration = (Point.time p).instant :=
        if_pos (Int.not_lt.mp hneg)
      rw [hsame] at hcovers
      exact hlate hcovers.2.2
    obtain ⟨rp', timeRanges, mapping, s', hgroups, -, hall⟩ :=
      h Unit Unit (clinging rp sg) () (clinging_serves hpos hmem hshards)
    obtain ⟨timeRanges', hgroups', hlookup'⟩ := clinging_group horder hp hcovers
    rw [hgroups] at hgroups'
    cases hgroups'
    obtain ⟨sg', sh, ps, hlookup, -, -, -, -, hbefore⟩ := hall p hp
    rw [hlookup'] at hlookup
    cases hlookup
    exact hlate hbefore
  · exact fun hends ε σ C s => MetaClient.Serves.inWindow hfor horder hends

end Window

/-- **As long as the duration was never changed** the groups of a policy are cells of one grid, and
    one that contains the truncated time of a point contains the point. -/
theorem endsAfter_of_policyOK {P : Type} [Point P] {rp : RetentionPolicyInfo} (h : PolicyOK rp)
    (points : List P) : EndsAfter rp points := by
  intro p _ sg hmem _ hcovers
  obtain ⟨hlive, hstart, hend⟩ := hcovers
  obtain ⟨hdvd, hlasts⟩ := h.cell sg hmem hlive
  have hsame := truncate_eq_of_cell h.duration_pos hdvd hstart (by rw [← hlasts]; exact hend)
  rw [truncate_truncate] at hsame
  rw [hlasts, ← hsame]
  exact lt_truncate_add h.duration_pos

/-! ## A client without delays -/

/-- The errors of the client. -/
inductive DirectErr
  | retentionPolicy (err : MetaErr)
  | command (text : String)
  /-- "retention policy deleted after shard group created". -/
  | policyDeleted
  deriving DecidableEq

section Direct

variable {X : Type}

/-- `Client.RetentionPolicy`. -/
def readPolicy (E : EmbeddedGroups) (database policy : String) :
    EStateM (MapStop DirectErr) (Data X) (Option RetentionPolicyInfo) := fun d =>
  match d.data with
  | none => .error .panicked d
  | some m =>
    match m.retentionPolicy E database policy with
    | .error err => .error (.client (.retentionPolicy err)) d
    | .ok rpi => .ok rpi d

/-- The command of `Client.CreateShardGroup`, executed: the time travels as an int64, and the state
    machine calls the embedded package (`other.Data.CreateShardGroup`). -/
def createCommand (emb : Embedded X) (database policy : String) (timestamp : Time) :
    EStateM (MapStop DirectErr) (Data X) Unit := fun d =>
  match d.data with
  | none => .error .panicked d
  | some m =>
    match emb.createShardGroup database policy (unixNano (toUnixNano timestamp)) m with
    | .ok m' => .ok () { d with data := some m' }
    | .error text => .error (.client (.command text)) d

/-- `Client.CreateShardGroup` when there is no group for the time yet. -/
def createAndRead (E : EmbeddedGroups) (emb : Embedded X) (database policy : String)
    (timestamp : Time) : EStateM (MapStop DirectErr) (Data X) (Option ShardGroupInfo) := do
  createCommand emb database policy timestamp
  let rpi ← readPolicy E database policy
  match rpi with
  | none => throw (.client .policyDeleted)
  | some rpi => pure (E.shardGroupByTimestamp rpi timestamp)

/-- `Client`, when its copy of the metadata is that of the servers. -/
def directClient (E : EmbeddedGroups) (emb : Embedded X) : MetaClient DirectErr (Data X) where
  retentionPolicy := readPolicy E
  createShardGroup database policy t := fun d =>
    match d.data with
    | none => .error .panicked d
    | some m =>
      match m.shardGroupByTimestamp E database policy t.instant with
      | some sg => .ok (some sg) d
      | none => createAndRead E emb database policy t.instant d

end Direct

/-! ## A duration that was changed -/

/-- A group of five nanoseconds, in a policy whose groups now last for ten. -/
def lengthened : RetentionPolicyInfo :=
  { name := "rp"
    replicaN := 1
    duration := 0
    shardGroupDuration := 10
    shardGroups := [{
      id := 1
      startTime := unixNano 0
      endTime := unixNano 5
      deletedAt := 0
      shards := [{ id := 1, owners := [{ nodeID := 1 }] }] }] }

/-- The policy, and a data node. -/
def lengthenedData : Data Unit :=
  { data := some {
      term := 1
      index := 4
      clusterID := 7
      databases := [{ name := "db", retentionPolicies := [lengthened] }]
      maxShardGroupID := 1
      maxShardID := 1
      rest := () }
    metaNodes := []
    dataNodes := [{ id := 1, host := "a:8091", tcpHost := "a:8088", pendingShardOwners := [] }]
    users := []
    roles := []
    maxNodeID := 1 }

/-- A point, so many nanoseconds after 1970. -/
def writeAt (nsec : Int) : WritePointsRequest Sample :=
  { database := "db", retentionPolicy := "rp", points := [⟨⟨unixNano nsec, 0⟩, 0⟩] }

/-- For a time that is truncated to 0 the client returns the group that is there. -/
theorem lengthened_serves {nsec : Int} (hnsec : truncate (unixNano nsec) 10 = unixNano 0) :
    (directClient findAndSort cellGroups).Serves (writeAt nsec) lengthened lengthenedData := by
  refine ⟨lengthenedData, rfl, fun d => d = lengthenedData, rfl, ?_⟩
  rintro d rfl t ⟨p, hp, rfl⟩
  have hrange : rangeOf lengthened.shardGroupDuration p = ⟨unixNano 0, 0⟩ := by
    rw [List.mem_singleton.mp hp]
    exact congrArg (fun instant => (⟨instant, 0⟩ : Moment)) hnsec
  rw [hrange]
  exact ⟨_, _, rfl, rfl, by decide, by decide, .inl List.mem_cons_self⟩

/-- The point at 3 is in the group. -/
theorem points_in_window_iff_three :
    InWindow (directClient findAndSort cellGroups) hashModulo id (writeAt 3) lengthenedData := by
  refine (points_in_window_iff hashModulo_lawful (fun l => List.Perm.refl l) (writeAt 3)
    lengthened).mpr (fun p hp sg hsg _ _ => ?_) DirectErr (Data Unit) _ _
    (lengthened_serves (by decide))
  rw [List.mem_singleton.mp hp, List.mem_singleton.mp hsg]
  decide

/-- The point at 7 goes to the same group, that ends at 5.  The client has done what is assumed of
    it, and the call returns nil. -/
theorem point_misses_window :
    (directClient findAndSort cellGroups).Serves (writeAt 7) lengthened lengthenedData ∧
    (∃ mapping, mapShards (directClient findAndSort cellGroups) hashModulo id (writeAt 7) lengthenedData
        = .ok mapping lengthenedData ∧ mapping.points.lookup 1 = some (writeAt 7).points) ∧
    ¬ InWindow (directClient findAndSort cellGroups) hashModulo id (writeAt 7) lengthenedData := by
  refine ⟨lengthened_serves (by decide), ⟨_, rfl, by decide +kernel⟩, ?_⟩
  rintro ⟨rp, timeRanges, mapping, d', hgroups, -, hall⟩
  have hfound : ∃ timeRanges,
      shardGroupsFor (directClient findAndSort cellGroups) id (writeAt 7) lengthenedData
      = .ok (lengthened, timeRanges) lengthenedData ∧
      timeRanges.lookup ⟨unixNano 0, 0⟩ = some lengthened.shardGroups.head? :=
    ⟨_, rfl, by decide +kernel⟩
  obtain ⟨timeRanges', hgroups', hlookup'⟩ := hfound
  rw [hgroups'] at hgroups
  cases hgroups
  obtain ⟨sg, -, -, hlookup, -, -, -, -, hbefore⟩ := hall _ List.mem_cons_self
  have hsame : some lengthened.shardGroups.head? = some (some sg) := hlookup'.symm.trans hlookup
  cases hsame
  exact absurd hbefore (by decide)

end InfluxCluster.Cluster
