/-
  `MapShards` (`cluster/points_writer.go`): which shard each point of a write belongs to.

  The call goes over the points TWICE.  The first time it only collects their times, truncated to
  the duration of the policy's shard groups, and then asks the meta client for a group for each of
  them, in the order in which Go happens to go over a map.  The second time it takes the group of
  the truncated time of a point, and the shard that the group has for the point's hash, and puts the
  point at the end of the list of that shard.

  THE REQUEST IS PARTITIONED (`mapShards_partitions`).  The lists are made in the second pass, in
  the order of the request, so the order of the map leaves no trace: every point is in one list,
  once, behind those of its shard that came before it.

  The client is an interface, and a parameter with a state of its own.  `ShardFor` is a method of the
  embedded package, that returns one of the shards of the group.
-/
import InfluxCluster.Lib.Buckets
import InfluxCluster.Meta.ShardGroups

namespace InfluxCluster.Cluster

open InfluxCluster.Lib InfluxCluster.Meta

/-! ## The code -/

/-- A `time.Time`.  Two of them are one key of a map only if their locations are the same too. -/
structure Moment where
  instant : Time
  loc : Nat
  deriving DecidableEq

/-- `t.Truncate(d)`. -/
def Moment.truncate (t : Moment) (d : Int) : Moment := { t with instant := Meta.truncate t.instant d }

/-- What is read of a `models.Point`. -/
class Point (P : Type) where
  time : P → Moment
  hashID : P → UInt64

/-- `WritePointsRequest`. -/
structure WritePointsRequest (P : Type) where
  database : String
  retentionPolicy : String
  points : List P

/-- `ShardMapping`. -/
structure ShardMapping (P : Type) where
  points : Buckets UInt64 P
  shards : AList fun _ : UInt64 => ShardInfo
  deriving DecidableEq

/-- How a call ends other than by returning nil. -/
inductive MapStop (ε : Type)
  /-- An error of the client. -/
  | client (err : ε)
  /-- "retention policy not found: …". -/
  | retentionPolicyNotFound (policy : String)
  | panicked
  deriving DecidableEq

/-- What is used of the `MetaClient`, with a state of its own. -/
structure MetaClient (ε σ : Type) where
  retentionPolicy : String → String → EStateM (MapStop ε) σ (Option RetentionPolicyInfo)
  createShardGroup : String → String → Moment → EStateM (MapStop ε) σ (Option ShardGroupInfo)

/-- `ShardGroupInfo.ShardFor`; `none` is a panic. -/
abbrev ShardFor : Type := ShardGroupInfo → UInt64 → Option ShardInfo

/-- What its documentation says: a group that has shards has one for each hash. -/
def ShardFor.Lawful (shardFor : ShardFor) : Prop :=
  ∀ sg hash, sg.shards ≠ [] → ∃ sh ∈ sg.shards, shardFor sg hash = some sh

/-- `timeRanges`: the groups that are required, nil before they have been asked for. -/
abbrev TimeRanges : Type := AList fun _ : Moment => Option ShardGroupInfo

section Code

variable {P : Type}

/-- `NewShardMapping`. -/
def ShardMapping.empty : ShardMapping P := { points := ∅, shards := ∅ }

/-- `MapPoint`. -/
def ShardMapping.mapPoint (s : ShardMapping P) (shardInfo : ShardInfo) (p : P) : ShardMapping P :=
  { points :=
      match s.points.lookup shardInfo.id with
      | none => s.points.insert shardInfo.id [p]
      | some points => s.points.insert shardInfo.id (points ++ [p])
    shards := s.shards.insert shardInfo.id shardInfo }

variable [Point P]

/-- `p.Time().Truncate(d)`. -/
def rangeOf (d : Int) (p : P) : Moment := (Point.time p).truncate d

/-- The first pass. -/
def requiredRanges (d : Int) (points : List P) : TimeRanges :=
  points.foldl (fun timeRanges p => timeRanges.insert (rangeOf d p) none) ∅

variable {ε σ : Type}

/-- A group for each of the times, in the order in which they come. -/
def createGroups (C : MetaClient ε σ) (database policy : String) :
    List Moment → TimeRanges → EStateM (MapStop ε) σ TimeRanges
  | [], timeRanges => pure timeRanges
  | t :: ts, timeRanges => do
    let sg ← C.createShardGroup database policy t
    createGroups C database policy ts (timeRanges.insert t sg)

/-- `sg.ShardFor(p.HashID())`, of the group of the point; a nil group panics, as does one that has
    no shards. -/
def pointShard (shardFor : ShardFor) (d : Int) (timeRanges : TimeRanges) (p : P) :
    Option ShardInfo :=
  (timeRanges.lookup (rangeOf d p)).join.bind fun sg => shardFor sg (Point.hashID p)

/-- The second pass. -/
def mapPoints (shardFor : ShardFor) (d : Int) (timeRanges : TimeRanges) :
    List P → ShardMapping P → EStateM (MapStop ε) σ (ShardMapping P)
  | [], mapping => pure mapping
  | p :: points, mapping =>
    match pointShard shardFor d timeRanges p with
    | none => throw .panicked
    | some sh => mapPoints shardFor d timeRanges points (mapping.mapPoint sh p)

/-- The policy, and the groups that are required for the points; `order` is the order in which Go
    goes over the keys of a map. -/
def shardGroupsFor (C : MetaClient ε σ) (order : List Moment → List Moment)
    (wp : WritePointsRequest P) : EStateM (MapStop ε) σ (RetentionPolicyInfo × TimeRanges) := do
  let rp ← C.retentionPolicy wp.database wp.retentionPolicy
  match rp with
  | none => throw (.retentionPolicyNotFound wp.retentionPolicy)
  | some rp =>
    let required := requiredRanges rp.shardGroupDuration wp.points
    let timeRanges ← createGroups C wp.database wp.retentionPolicy (order required.keys) required
    pure (rp, timeRanges)

/-- `MapShards`. -/
def mapShards (C : MetaClient ε σ) (shardFor : ShardFor) (order : List Moment → List Moment)
    (wp : WritePointsRequest P) : EStateM (MapStop ε) σ (ShardMapping P) := do
  let (rp, timeRanges) ← shardGroupsFor C order wp
  mapPoints shardFor rp.shardGroupDuration timeRanges wp.points ShardMapping.empty

end Code

/-! ## The groups -/

section Groups

variable {ε σ P : Type} [Point P]

/-- From the state on, whatever has been asked for before, the client has for each of the times a
    group that `Q` holds of. -/
def MetaClient.Answers (C : MetaClient ε σ) (database policy : String) (asked : Moment → Prop)
    (Q : Moment → ShardGroupInfo → Prop) (s : σ) : Prop :=
  ∃ R : σ → Prop, R s ∧ ∀ s, R s → ∀ t, asked t →
    ∃ sg s', C.createShardGroup database policy t s = .ok (some sg) s' ∧ R s' ∧ Q t sg

variable {C : MetaClient ε σ} {database policy : String} {asked : Moment → Prop}
  {Q : Moment → ShardGroupInfo → Prop} {s s₁ : σ} {d : Int}

/-- The loop over the time ranges, one group for each. -/
theorem createGroups_ok (ts : List Moment) : ∀ (timeRanges : TimeRanges) {s : σ},
    C.Answers database policy asked Q s → (∀ t ∈ ts, asked t) →
    ∃ timeRanges' s', createGroups C database policy ts timeRanges s = .ok timeRanges' s' ∧
      (∀ t ∈ ts, ∃ sg, timeRanges'.lookup t = some (some sg) ∧ Q t sg) ∧
      ∀ t, t ∉ ts → timeRanges'.lookup t = timeRanges.lookup t := by
  induction ts with
  | nil =>
    intro timeRanges s _ _
    exact ⟨timeRanges, s, rfl, fun t ht => absurd ht List.not_mem_nil, fun _ _ => rfl⟩
  | cons t ts ih =>
    rintro timeRanges s ⟨R, hR, hanswers⟩ hasked
    obtain ⟨sg, s₁, hcall, hR₁, hQ⟩ := hanswers s hR t (hasked t List.mem_cons_self)
    obtain ⟨timeRanges', s', hrest, hfound, hkept⟩ := ih (timeRanges.insert t (some sg))
      ⟨R, hR₁, hanswers⟩ fun t' ht' => hasked t' (List.mem_cons_of_mem t ht')
    refine ⟨timeRanges', s', ?_, fun t' ht' => ?_, fun t' ht' => ?_⟩
    · rw [createGroups, bind_ok hcall]
      exact hrest
    · -- a time that comes again is answered again
      by_cases hlater : t' ∈ ts
      · exact hfound t' hlater
      · have heq : t' = t := (List.mem_cons.mp ht').resolve_right hlater
        refine ⟨sg, ?_, heq ▸ hQ⟩
        rw [hkept t' hlater, heq, AList.lookup_insert]
    · obtain ⟨hne, hlater⟩ := not_or.mp (List.mem_cons.not.mp ht')
      rw [hkept t' hlater, AList.lookup_insert_ne hne]

/-- The keys of the first pass are the truncated times of the points. -/
theorem mem_requiredRanges (points : List P) {t : Moment} :
    t ∈ requiredRanges d points ↔ ∃ p ∈ points, rangeOf d p = t := by
  have hadd : ∀ (timeRanges : TimeRanges) (p : P),
      t ∈ timeRanges.insert (rangeOf d p) none ↔ t ∈ timeRanges ∨ rangeOf d p = t := by
    intro timeRanges p
    rw [AList.mem_insert, or_comm, eq_comm]
  rw [requiredRanges, foldl_has_iff (t ∈ ·) hadd]
  exact or_iff_right (AList.notMem_empty t)

/-- **The groups that are required**: those of the client, one for the truncated time of each
    point. -/
theorem shardGroupsFor_ok {order : List Moment → List Moment} (horder : ∀ l, (order l).Perm l)
    {wp : WritePointsRequest P} {rp : RetentionPolicyInfo}
    (hrp : C.retentionPolicy wp.database wp.retentionPolicy s = .ok (some rp) s₁)
    (hanswers : C.Answers wp.database wp.retentionPolicy
      (fun t => ∃ p ∈ wp.points, rangeOf rp.shardGroupDuration p = t) Q s₁) :
    ∃ timeRanges s', shardGroupsFor C order wp s = .ok (rp, timeRanges) s' ∧
      ∀ p ∈ wp.points, ∃ sg, timeRanges.lookup (rangeOf rp.shardGroupDuration p) = some (some sg) ∧
        Q (rangeOf rp.shardGroupDuration p) sg := by
  set required := requiredRanges rp.shardGroupDuration wp.points with hrequired
  have hmem : ∀ t, t ∈ order required.keys ↔ ∃ p ∈ wp.points, rangeOf rp.shardGroupDuration p = t :=
    fun t => (horder _).mem_iff.trans (mem_requiredRanges wp.points)
  obtain ⟨timeRanges, s', hcreate, hfound, -⟩ :=
    createGroups_ok (order required.keys) required hanswers fun t ht => (hmem t).mp ht
  refine ⟨timeRanges, s', ?_, fun p hp => hfound _ ((hmem _).mpr ⟨p, hp, rfl⟩)⟩
  rw [shardGroupsFor, bind_ok hrp]
  exact bind_ok hcreate

end Groups

/-! ## The lists -/

section Lists

variable {ε σ P : Type}

/-- The points, each with its shard. -/
def ShardMapping.mapAll (shard : P → ShardInfo) (points : List P) (mapping : ShardMapping P) :
    ShardMapping P :=
  points.foldl (fun mapping p => mapping.mapPoint (shard p) p) mapping

/-- The shards that were mapped are those that have points, each under its own identifier. -/
structure ShardMapping.Matching (mapping : ShardMapping P) : Prop where
  keys : ∀ id, id ∈ mapping.shards ↔ id ∈ mapping.points
  ids : ∀ id sh, mapping.shards.lookup id = some sh → sh.id = id

variable {mapping : ShardMapping P} {shard : P → ShardInfo} {sh : ShardInfo} {p : P}

theorem mapPoint_points : (mapping.mapPoint sh p).points = mapping.points.put sh.id p := by
  rw [ShardMapping.mapPoint, Buckets.put, Buckets.bucket]
  rcases mapping.points.lookup sh.id with _ | points <;> rfl

/-- The map of points is the buckets filled by shard. -/
theorem mapAll_points (points : List P) : ∀ mapping : ShardMapping P,
    (mapping.mapAll shard points).points
      = Buckets.fill (fun p => (shard p).id) points mapping.points := by
  induction points with
  | nil => exact fun _ => rfl
  | cons p points ih =>
    intro mapping
    rw [ShardMapping.mapAll, List.foldl_cons, ← ShardMapping.mapAll, ih, mapPoint_points]
    rfl

/-- The list of a shard. -/
theorem bucket_mapAll (shard : P → ShardInfo) (points : List P) (id : UInt64) :
    (ShardMapping.empty.mapAll shard points).points.bucket id
      = points.filter fun p => (shard p).id = id := by
  rw [mapAll_points, Buckets.bucket_fill]
  show (∅ : Buckets UInt64 P).bucket id ++ _ = _
  rw [Buckets.bucket_empty, List.nil_append]

/-- A point is in the list of its shard. -/
theorem mem_mapAll (shard : P → ShardInfo) {points : List P} (hp : p ∈ points) :
    ∃ ps, (ShardMapping.empty.mapAll shard points).points.lookup (shard p).id = some ps ∧
      p ∈ ps := by
  have hmem : p ∈ (ShardMapping.empty.mapAll shard points).points.bucket (shard p).id := by
    rw [bucket_mapAll, List.mem_filter]
    exact ⟨hp, decide_eq_true rfl⟩
  exact ⟨_, Buckets.lookup_of_mem_bucket hmem, hmem⟩

theorem ShardMapping.Matching.empty : (ShardMapping.empty : ShardMapping P).Matching where
  keys _ := Iff.rfl
  ids id sh h := by
    rw [ShardMapping.empty, AList.lookup_empty] at h
    cases h

/-- A point goes into both maps. -/
theorem ShardMapping.Matching.mapPoint (h : mapping.Matching) :
    (mapping.mapPoint sh p).Matching where
  keys id := by
    rw [mapPoint_points]
    show id ∈ AList.insert sh.id sh mapping.shards ↔ id ∈ AList.insert sh.id _ mapping.points
    rw [AList.mem_insert, AList.mem_insert, h.keys]
  ids id sh' hsh' := by
    by_cases heq : id = sh.id
    · subst heq
      have hsame : some sh = some sh' := (AList.lookup_insert mapping.shards).symm.trans hsh'
      cases hsame
      rfl
    · exact h.ids id sh' ((AList.lookup_insert_ne heq).symm.trans hsh')

theorem ShardMapping.Matching.mapAll (points : List P) : ∀ {mapping : ShardMapping P},
    mapping.Matching → (mapping.mapAll shard points).Matching := by
  induction points with
  | nil => exact fun h => h
  | cons p points ih => exact fun h => ih h.mapPoint

variable [Point P] {shardFor : ShardFor} {d : Int} {timeRanges : TimeRanges}

/-- The loop over the points, if each has a shard. -/
theorem mapPoints_ok (points : List P) (s : σ) : ∀ mapping : ShardMapping P,
    (∀ p ∈ points, pointShard shardFor d timeRanges p = some (shard p)) →
    (mapPoints shardFor d timeRanges points mapping : EStateM (MapStop ε) σ (ShardMapping P)) s
      = .ok (mapping.mapAll shard points) s := by
  induction points with
  | nil => exact fun _ _ => rfl
  | cons p points ih =>
    intro mapping h
    rw [mapPoints, h p List.mem_cons_self]
    exact ih (mapping.mapPoint (shard p) p) fun p' hp' => h p' (List.mem_cons_of_mem p hp')

end Lists

/-! ## The request is partitioned -/

section Partition

variable {ε σ P : Type} [Point P]

/-- **The points, each in the list of its shard.** -/
structure Partitions (shardFor : ShardFor) (groupAt : Moment → ShardGroupInfo) (d : Int)
    (points : List P) (mapping : ShardMapping P) : Prop where
  /-- Every point is there, once. -/
  once : mapping.points.values.Perm points
  /-- The lists keep the order of the request. -/
  ordered : ∀ id ps, mapping.points.lookup id = some ps → ps.Sublist points
  /-- Each point is in the list of the shard that its group has for it. -/
  placed : ∀ id ps, mapping.points.lookup id = some ps → ∀ p ∈ ps,
    ∃ sh, shardFor (groupAt (rangeOf d p)) (Point.hashID p) = some sh ∧ sh.id = id
  matching : mapping.Matching

variable {shardFor : ShardFor} {groupAt : Moment → ShardGroupInfo} {d : Int} {points : List P}
  {shard : P → ShardInfo}

/-- Each point is in the list of its shard, once. -/
theorem mapAll_partitions
    (hshard : ∀ p ∈ points, shardFor (groupAt (rangeOf d p)) (Point.hashID p) = some (shard p)) :
    Partitions shardFor groupAt d points (ShardMapping.empty.mapAll shard points) := by
  have hlist : ∀ id ps, (ShardMapping.empty.mapAll shard points).points.lookup id = some ps →
      ps = points.filter fun p => (shard p).id = id := by
    intro id ps hps
    rw [← Buckets.bucket_of_lookup hps, bucket_mapAll]
  refine ⟨?_, fun id ps hps => ?_, fun id ps hps p hp => ?_, .mapAll points .empty⟩
  · rw [mapAll_points]
    exact Buckets.values_fill points ∅
  · rw [hlist id ps hps]
    exact List.filter_sublist
  · rw [hlist id ps hps, List.mem_filter] at hp
    exact ⟨shard p, hshard p hp.1, of_decide_eq_true hp.2⟩

/-- **`MapShards` partitions the request.**  Of a client that has a policy, and for each time a group
    with shards, it returns a mapping in which every point is in one list, once; the lists keep the
    order of the request; each point is in that of the shard that the group of its truncated time has
    for its hash; and the shards are those of the lists.  The mapping is the same whatever the order
    in which Go goes over a map. -/
theorem mapShards_partitions (C : MetaClient ε σ) (hfor : shardFor.Lawful)
    (wp : WritePointsRequest P) {rp : RetentionPolicyInfo} {s s₁ : σ}
    (hrp : C.retentionPolicy wp.database wp.retentionPolicy s = .ok (some rp) s₁)
    (hgroups : ∀ t s, ∃ s', C.createShardGroup wp.database wp.retentionPolicy t s
      = .ok (some (groupAt t)) s')
    (hshards : ∀ t, (groupAt t).shards ≠ []) :
    ∃ mapping, Partitions shardFor groupAt rp.shardGroupDuration wp.points mapping ∧
      ∀ order : List Moment → List Moment, (∀ l, (order l).Perm l) →
        ∃ s', mapShards C shardFor order wp s = .ok mapping s' := by
  have hshard : ∀ p : P, ∃ sh,
      shardFor (groupAt (rangeOf rp.shardGroupDuration p)) (Point.hashID p) = some sh := by
    intro p
    obtain ⟨sh, -, hsh⟩ := hfor _ (Point.hashID p) (hshards (rangeOf rp.shardGroupDuration p))
    exact ⟨sh, hsh⟩
  choose shard hshard using hshard
  refine ⟨_, mapAll_partitions fun p _ => hshard p, fun order horder => ?_⟩
  -- the client's state does not matter to the groups that it returns
  have hanswers : C.Answers wp.database wp.retentionPolicy
      (fun t => ∃ p ∈ wp.points, rangeOf rp.shardGroupDuration p = t) (fun t sg => sg = groupAt t)
      s₁ := by
    refine ⟨fun _ => True, trivial, fun s _ t _ => ?_⟩
    obtain ⟨s', hs'⟩ := hgroups t s
    exact ⟨groupAt t, s', hs', trivial, rfl⟩
  obtain ⟨timeRanges, s', hgroupsFor, hfound⟩ := shardGroupsFor_ok horder hrp hanswers
  refine ⟨s', ?_⟩
  rw [mapShards, bind_ok hgroupsFor]
  refine mapPoints_ok wp.points s' _ fun p hp => ?_
  obtain ⟨sg, hlookup, rfl⟩ := hfound p hp
  rw [pointShard, hlookup]
  exact hshard p

end Partition

/-- `ShardFor` as it is in the embedded package. -/
def hashModulo : ShardFor := fun sg hash => sg.shards[hash.toNat % sg.shards.length]?

theorem hashModulo_lawful : hashModulo.Lawful := by
  intro sg hash hne
  have hlt : hash.toNat % sg.shards.length < sg.shards.length :=
    Nat.mod_lt _ (List.length_pos_iff.mpr hne)
  exact ⟨_, List.getElem_mem hlt, List.getElem?_eq_getElem hlt⟩

/-- A point that is a time and a hash. -/
structure Sample where
  time : Moment
  hashID : UInt64
  deriving DecidableEq

instance : Point Sample := ⟨Sample.time, Sample.hashID⟩

/-- Groups of two shards. -/
def twoShards (t : Moment) : ShardGroupInfo :=
  { id := 1
    startTime := t.instant
    endTime := t.instant + 10
    deletedAt := 0
    shards := [{ id := UInt64.ofNat (2 * t.instant.toNat + 1), owners := [] },
      { id := UInt64.ofNat (2 * t.instant.toNat + 2), owners := [] }] }

/-- A client that has them, and counts how often it is asked. -/
def counting (rp : RetentionPolicyInfo) : MetaClient Unit Nat where
  retentionPolicy _ _ n := .ok (some rp) n
  createShardGroup _ _ t n := .ok (some (twoShards t)) (n + 1)

/-- Groups of ten nanoseconds. -/
def tens : RetentionPolicyInfo :=
  { name := "rp", replicaN := 1, duration := 0, shardGroupDuration := 10, shardGroups := [] }

/-- Five points in three groups. -/
def fiveSamples : WritePointsRequest Sample :=
  { database := "db"
    retentionPolicy := "rp"
    points := [⟨⟨3, 0⟩, 0⟩, ⟨⟨12, 0⟩, 1⟩, ⟨⟨7, 0⟩, 2⟩, ⟨⟨25, 0⟩, 0⟩, ⟨⟨3, 0⟩, 0⟩] }

theorem mapShards_partitions_five :
    ∃ mapping, Partitions hashModulo twoShards 10 fiveSamples.points mapping ∧
      ∃ n, mapShards (counting tens) hashModulo List.reverse fiveSamples 0 = .ok mapping n := by
  obtain ⟨mapping, hpartitions, hany⟩ := mapShards_partitions (counting tens) hashModulo_lawful
    fiveSamples (s := 0) rfl (fun t n => ⟨n + 1, rfl⟩)
    fun t => List.cons_ne_nil _ _
  exact ⟨mapping, hpartitions, hany List.reverse fun l => List.reverse_perm l⟩

/-- The lists of two of the shards. -/
example : (Lib.returned (mapShards (counting tens) hashModulo id fiveSamples 0)).map
      (fun mapping => (mapping.points.lookup 1, mapping.points.lookup 22))
    = some (some [⟨⟨3, 0⟩, 0⟩, ⟨⟨7, 0⟩, 2⟩, ⟨⟨3, 0⟩, 0⟩], some [⟨⟨12, 0⟩, 1⟩]) := by
  decide +kernel

end InfluxCluster.Cluster
