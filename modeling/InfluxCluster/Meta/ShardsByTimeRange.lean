/-
  `ShardsByTimeRange` (`meta/client.go`): the shards that a query has to ask.

  Several sources of a query may name the same database and policy, so the shards are collected in a
  set.  The set is of POINTERS: two shards are the same if they are at the same place of the memory.
  Each source is looked up in the copy of the metadata that the client has at that moment, and
  `pollForUpdates` may put another copy in its place between two lookups, freshly decoded.  In
  another copy the same shard is at another place.

  * In one copy a pointer and an identifier are the same thing, if the identifiers of the copy are
    unique (`pointer_eq_of_id`).
  * So a shard is in the list twice exactly if two lookups in different copies have found it
    (`shards_nodup_iff`).  That can only be when a refresh comes between two lookups, and then it
    is: the same source twice is enough (`refresh_duplicates_shard`).

  A `Pointer` is the number of the copy and the position of the shard in it.  The list is made from
  a map, in whatever order Go goes over it.  `Overlaps` is a method of the embedded package.
-/
import InfluxCluster.Lib.Buckets
import InfluxCluster.Meta.ShardGroups

namespace InfluxCluster.Meta

/-! ## The code -/

/-- An `influxql.Source`. -/
inductive Source
  | measurement (database retentionPolicy : String)
  /-- Any other type of source. -/
  | other
  deriving DecidableEq

/-- The client's copy of the metadata; each refresh makes a new one. -/
structure Copy (X : Type) where
  number : Nat
  data : Data X

/-- `c.cacheData = data`. -/
def Copy.refresh {X : Type} (c : Copy X) (data : Data X) : Copy X := ⟨c.number + 1, data⟩

/-- Where a shard is in the memory: in which copy, and at which position of the slices. -/
structure Pointer where
  copy : Nat
  database : Nat
  policy : Nat
  group : Nat
  shard : Nat
  deriving DecidableEq

/-- How a lookup ends other than by returning shards. -/
inductive LookupStop
  /-- "invalid source type: …". -/
  | invalidSourceType
  | embedded (err : MetaErr)
  /-- "retention policy not found: …". -/
  | retentionPolicyNotFound (policy : String)
  | panicked
  deriving DecidableEq

/-- A map from pointers, `m`; the values are what they point to. -/
abbrev Pointers : Type := AList fun _ : Pointer => ShardInfo

section Code

variable {X : Type}

/-- `data.Data.RetentionPolicy`, with the place of the policy that it returns a pointer to. -/
def MetaData.located (m : MetaData X) (E : EmbeddedGroups) (database policy : String) :
    Except MetaErr (Option (RetentionPolicyInfo × Nat × Nat)) :=
  (E.retentionPolicy m.databases database policy).map fun place =>
    place.bind fun place => (m.policyAt place).map fun rpi => (rpi, place)

/-- The shards of a group, each with the pointer to it. -/
def groupPointers (copy database policy : Nat) (g : ShardGroupInfo × Nat) :
    List (Pointer × ShardInfo) :=
  g.1.shards.zipIdx.map fun sh => (⟨copy, database, policy, g.2, sh.2⟩, sh.1)

/-- `ShardGroupsByTimeRange`: the groups with their positions.  They are copies, but their slices of
    shards are those of the client's copy. -/
def shardGroupsByTimeRange (E : EmbeddedGroups) (overlaps : ShardGroupInfo → Time → Time → Bool)
    (c : Copy X) (database policy : String) (tmin tmax : Time) :
    Except LookupStop (List (ShardGroupInfo × Nat) × Nat × Nat) :=
  match c.data.data with
  | none => .error .panicked
  | some m =>
    match m.located E database policy with
    | .error err => .error (.embedded err)
    | .ok none => .error (.retentionPolicyNotFound policy)
    | .ok (some (rpi, i, j)) =>
      .ok (rpi.shardGroups.zipIdx.filter fun g => g.1.Live ∧ overlaps g.1 tmin tmax, i, j)

/-- The shards of one source, each with the pointer to it. -/
def lookupSource (E : EmbeddedGroups) (overlaps : ShardGroupInfo → Time → Time → Bool)
    (tmin tmax : Time) (c : Copy X) : Source → Except LookupStop (List (Pointer × ShardInfo))
  | .other => .error .invalidSourceType
  | .measurement database policy =>
    match shardGroupsByTimeRange E overlaps c database policy tmin tmax with
    | .error stop => .error stop
    | .ok (groups, i, j) => .ok (groups.flatMap (groupPointers c.number i j))

/-- `m[&g.Shards[i]] = struct{}{}`, for each of them. -/
def Pointers.addAll (m : Pointers) (shards : List (Pointer × ShardInfo)) : Pointers :=
  shards.foldl (fun m sh => m.insert sh.1 sh.2) m

/-- A source, and the data that the client is given before it is looked up. -/
abbrev Turn (X : Type) : Type := List (Data X) × Source

/-- The loop over the sources. -/
def lookupSources (E : EmbeddedGroups) (overlaps : ShardGroupInfo → Time → Time → Bool)
    (tmin tmax : Time) :
    List (Turn X) → Copy X → Pointers → Except LookupStop Pointers
  | [], _, m => .ok m
  | (refreshes, src) :: turns, c, m =>
    match lookupSource E overlaps tmin tmax (refreshes.foldl Copy.refresh c) src with
    | .error stop => .error stop
    | .ok shards =>
      lookupSources E overlaps tmin tmax turns (refreshes.foldl Copy.refresh c) (m.addAll shards)

/-- `ShardsByTimeRange`; `order` is the order in which Go goes over a map. -/
def shardsByTimeRange (E : EmbeddedGroups) (overlaps : ShardGroupInfo → Time → Time → Bool)
    (order : List ShardInfo → List ShardInfo) (c : Copy X) (turns : List (Turn X))
    (tmin tmax : Time) : Except LookupStop (List ShardInfo) :=
  match lookupSources E overlaps tmin tmax turns c ∅ with
  | .error stop => .error stop
  | .ok m => .ok (order (m.entries.map Sigma.snd))

end Code

/-! ## One copy -/

section OneCopy

variable {X : Type}

/-- The shard identifiers of the data are unique. -/
def Data.UniqueShards (d : Data X) : Prop :=
  ∀ m ∈ d.data, (m.shards.map ShardInfo.id).Nodup

/-- All shards of a copy, each with the pointer to it. -/
def MetaData.pointers (m : MetaData X) (copy : Nat) : List (Pointer × ShardInfo) :=
  m.databases.zipIdx.flatMap fun db =>
    db.1.retentionPolicies.zipIdx.flatMap fun rp =>
      rp.1.shardGroups.zipIdx.flatMap (groupPointers copy db.2 rp.2)

/-- What is at the position. -/
def MetaData.deref (m : MetaData X) (p : Pointer) : Option ShardInfo := do
  let db ← m.databases[p.database]?
  let rp ← db.retentionPolicies[p.policy]?
  let g ← rp.shardGroups[p.group]?
  g.shards[p.shard]?

theorem flatMap_zipIdx {α β : Type} (l : List α) (f : α → List β) :
    l.zipIdx.flatMap (fun a => f a.1) = l.flatMap f := by
  rw [← List.flatMap_map Prod.fst f, List.zipIdx_map_fst]

/-- The policy is at its place. -/
theorem getElem?_of_located {m : MetaData X} {E : EmbeddedGroups} {database policy : String}
    {rpi : RetentionPolicyInfo} {i j : Nat}
    (h : m.located E database policy = .ok (some (rpi, i, j))) :
    ∃ db, m.databases[i]? = some db ∧ db.retentionPolicies[j]? = some rpi := by
  rw [MetaData.located] at h
  rcases hp : E.retentionPolicy m.databases database policy with err | _ | place
  · rw [hp] at h
    cases h
  · rw [hp] at h
    cases h
  · rw [hp] at h
    obtain ⟨rpi', hrpi, heq⟩ := Option.map_eq_some_iff.mp (Except.ok.inj h)
    cases heq
    exact Option.bind_eq_some_iff.mp hrpi

theorem mem_groupPointers {copy i j : Nat} {g : ShardGroupInfo × Nat} {p : Pointer}
    {sh : ShardInfo} : (p, sh) ∈ groupPointers copy i j g ↔
      p.copy = copy ∧ p.database = i ∧ p.policy = j ∧ p.group = g.2 ∧
        g.1.shards[p.shard]? = some sh := by
  rw [groupPointers, List.mem_map]
  constructor
  · rintro ⟨⟨sh', l⟩, hmem, heq⟩
    cases heq
    exact ⟨rfl, rfl, rfl, rfl, List.mem_zipIdx_iff_getElem?.mp hmem⟩
  · rintro ⟨rfl, rfl, rfl, hg, hsh⟩
    refine ⟨(sh, p.shard), List.mem_zipIdx_iff_getElem?.mpr hsh, ?_⟩
    rw [← hg]

/-- **The pointers of a copy**: each points to the shard at its position. -/
theorem mem_pointers {m : MetaData X} {copy : Nat} {p : Pointer} {sh : ShardInfo} :
    (p, sh) ∈ m.pointers copy ↔ p.copy = copy ∧ m.deref p = some sh := by
  simp only [MetaData.pointers, MetaData.deref, List.mem_flatMap, mem_groupPointers, Prod.exists,
    List.mem_zipIdx_iff_getElem?, Option.bind_eq_bind, Option.bind_eq_some_iff]
  constructor
  · rintro ⟨db, i, hdb, rp, j, hrp, g, k, hg, hcopy, rfl, rfl, rfl, hsh⟩
    exact ⟨hcopy, db, hdb, rp, hrp, g, hg, hsh⟩
  · rintro ⟨hcopy, db, hdb, rp, hrp, g, hg, hsh⟩
    exact ⟨db, _, hdb, rp, _, hrp, g, _, hg, hcopy, rfl, rfl, rfl, hsh⟩

/-- They are those of the shards of the data. -/
theorem pointers_map_snd (m : MetaData X) (copy : Nat) :
    (m.pointers copy).map Prod.snd = m.shards := by
  have hgroup : ∀ i j (g : ShardGroupInfo × Nat),
      (groupPointers copy i j g).map Prod.snd = g.1.shards := by
    intro i j g
    rw [groupPointers, List.map_map]
    exact List.zipIdx_map_fst 0 _
  -- the positions are forgotten from the inside to the outside
  have hpolicy : ∀ rp : RetentionPolicyInfo,
      rp.shardGroups.zipIdx.flatMap (fun g => g.1.shards)
        = rp.shardGroups.flatMap ShardGroupInfo.shards := fun rp => flatMap_zipIdx _ _
  have hdatabase : ∀ db : DatabaseInfo,
      db.retentionPolicies.zipIdx.flatMap (fun rp => rp.1.shardGroups.flatMap ShardGroupInfo.shards)
        = db.retentionPolicies.flatMap fun rp => rp.shardGroups.flatMap ShardGroupInfo.shards :=
    fun db => flatMap_zipIdx db.retentionPolicies fun rp =>
      rp.shardGroups.flatMap ShardGroupInfo.shards
  simp only [MetaData.pointers, List.map_flatMap, hgroup, hpolicy, hdatabase]
  rw [flatMap_zipIdx m.databases fun db => db.retentionPolicies.flatMap fun rp =>
      rp.shardGroups.flatMap ShardGroupInfo.shards, MetaData.shards, MetaData.groups_eq,
    MetaData.policies, List.flatMap_assoc, List.flatMap_assoc]

/-- **In one copy a pointer and an identifier are the same thing.** -/
theorem pointer_eq_of_id {m : MetaData X} (hunique : (m.shards.map ShardInfo.id).Nodup) {copy : Nat}
    {x y : Pointer × ShardInfo} (hx : x ∈ m.pointers copy) (hy : y ∈ m.pointers copy)
    (hid : x.2.id = y.2.id) : x = y := by
  rw [← pointers_map_snd m copy, List.map_map] at hunique
  exact List.inj_on_of_nodup_map hunique hx hy hid

end OneCopy

/-! ## The lookups -/

section Lookups

variable {X : Type} {E : EmbeddedGroups} {overlaps : ShardGroupInfo → Time → Time → Bool}
  {tmin tmax : Time}

/-- Which source is looked up in which copy. -/
def views : List (Turn X) → Copy X → List (Copy X × Source)
  | [], _ => []
  | (refreshes, src) :: turns, c =>
    (refreshes.foldl Copy.refresh c, src) :: views turns (refreshes.foldl Copy.refresh c)

/-- What the lookup finds: the shards of the groups of the policy that are not deleted and overlap
    the range. -/
def selected (E : EmbeddedGroups) (overlaps : ShardGroupInfo → Time → Time → Bool)
    (tmin tmax : Time)
    (v : Copy X × Source) : List (Pointer × ShardInfo) :=
  match lookupSource E overlaps tmin tmax v.1 v.2 with
  | .error _ => []
  | .ok shards => shards

/-- **What a lookup finds**: the shards of the groups of the policy that are not deleted and overlap
    the range. -/
theorem mem_selected {c : Copy X} {database policy : String} {x : Pointer × ShardInfo} :
    x ∈ selected E overlaps tmin tmax (c, .measurement database policy) ↔
      ∃ m rpi i j g k, c.data.data = some m ∧ m.located E database policy = .ok (some (rpi, i, j)) ∧
        rpi.shardGroups[k]? = some g ∧ g.Live ∧ overlaps g tmin tmax = true ∧
        x ∈ groupPointers c.number i j (g, k) := by
  rw [selected, lookupSource, shardGroupsByTimeRange]
  rcases hdata : c.data.data with _ | m
  · exact iff_of_false List.not_mem_nil (by rintro ⟨_, _, _, _, _, _, h, -⟩; cases h)
  · dsimp only
    rcases hpolicy : m.located E database policy with err | _ | ⟨rpi, i, j⟩
    · refine iff_of_false List.not_mem_nil ?_
      rintro ⟨_, _, _, _, _, _, h, h', -⟩
      cases h
      rw [hpolicy] at h'
      cases h'
    · refine iff_of_false List.not_mem_nil ?_
      rintro ⟨_, _, _, _, _, _, h, h', -⟩
      cases h
      rw [hpolicy] at h'
      cases h'
    · dsimp only
      rw [List.mem_flatMap]
      constructor
      · rintro ⟨⟨g, k⟩, hg, hx⟩
        obtain ⟨hgroup, hlive⟩ := List.mem_filter.mp hg
        obtain ⟨hlive, hoverlaps⟩ := of_decide_eq_true hlive
        exact ⟨m, rpi, i, j, g, k, rfl, hpolicy, List.mem_zipIdx_iff_getElem?.mp hgroup, hlive,
          hoverlaps, hx⟩
      · rintro ⟨_, _, _, _, g, k, h, h', hgroup, hlive, hoverlaps, hx⟩
        cases h
        rw [hpolicy] at h'
        cases h'
        exact ⟨(g, k), List.mem_filter.mpr ⟨List.mem_zipIdx_iff_getElem?.mpr hgroup,
          decide_eq_true ⟨hlive, hoverlaps⟩⟩, hx⟩

/-- It finds shards of its copy. -/
theorem selected_pointers {v : Copy X × Source} {x : Pointer × ShardInfo}
    (h : x ∈ selected E overlaps tmin tmax v) :
    ∃ m, v.1.data.data = some m ∧ x ∈ m.pointers v.1.number := by
  obtain ⟨c, src⟩ := v
  obtain ⟨p, sh⟩ := x
  cases src with
  | other => exact absurd h List.not_mem_nil
  | measurement database policy =>
    rw [selected, lookupSource, shardGroupsByTimeRange] at h
    cases hdata : c.data.data with
    | none =>
      rw [hdata] at h
      exact absurd h List.not_mem_nil
    | some m =>
      refine ⟨m, rfl, ?_⟩
      rw [hdata] at h
      dsimp only at h
      rcases hpolicy : m.located E database policy with err | _ | ⟨rpi, i, j⟩
      · rw [hpolicy] at h
        exact absurd h List.not_mem_nil
      · rw [hpolicy] at h
        exact absurd h List.not_mem_nil
      · rw [hpolicy] at h
        obtain ⟨⟨g, k⟩, hg, hp⟩ := List.mem_flatMap.mp h
        obtain ⟨db, hdb, hrp⟩ := getElem?_of_located hpolicy
        have hgroup := List.mem_zipIdx_iff_getElem?.mp (List.mem_filter.mp hg).1
        obtain ⟨hcopy, rfl, rfl, rfl, hsh⟩ := mem_groupPointers.mp hp
        rw [mem_pointers]
        refine ⟨hcopy, ?_⟩
        simp only [MetaData.deref, Option.bind_eq_bind, Option.bind_eq_some_iff]
        exact ⟨db, hdb, rpi, hrp, g, hgroup, hsh⟩

theorem number_le_refreshes (refreshes : List (Data X)) : ∀ c : Copy X,
    c.number ≤ (refreshes.foldl Copy.refresh c).number ∧
      ((refreshes.foldl Copy.refresh c).number = c.number → refreshes.foldl Copy.refresh c = c) := by
  induction refreshes with
  | nil => exact fun c => ⟨le_rfl, fun _ => rfl⟩
  | cons d refreshes ih =>
    intro c
    have hle : c.number + 1 ≤ _ := (ih (c.refresh d)).1
    rw [List.foldl_cons]
    exact ⟨by omega, fun heq => by omega⟩

/-- A copy that has the number of an earlier one is that. -/
theorem number_le_views (turns : List (Turn X)) : ∀ c : Copy X, ∀ v ∈ views turns c,
    c.number ≤ v.1.number ∧ (v.1.number = c.number → v.1 = c) := by
  induction turns with
  | nil => exact fun c v hv => absurd hv List.not_mem_nil
  | cons turn turns ih =>
    obtain ⟨refreshes, src⟩ := turn
    intro c v hv
    obtain ⟨hle, hsame⟩ := number_le_refreshes refreshes c
    rcases List.mem_cons.mp hv with rfl | hv
    · exact ⟨hle, hsame⟩
    · obtain ⟨hle', hsame'⟩ := ih _ v hv
      refine ⟨hle.trans hle', fun heq => ?_⟩
      rw [hsame' (by omega)]
      exact hsame (by omega)

/-- **Two lookups in copies of the same number are in the same copy.** -/
theorem eq_of_number (turns : List (Turn X)) : ∀ c : Copy X, ∀ v ∈ views turns c,
    ∀ w ∈ views turns c, v.1.number = w.1.number → v.1 = w.1 := by
  induction turns with
  | nil => exact fun c v hv => absurd hv List.not_mem_nil
  | cons turn turns ih =>
    obtain ⟨refreshes, src⟩ := turn
    intro c v hv w hw heq
    have hlater := number_le_views turns (refreshes.foldl Copy.refresh c)
    rcases List.mem_cons.mp hv with rfl | hv
    · rcases List.mem_cons.mp hw with rfl | hw
      · rfl
      · exact ((hlater w hw).2 heq.symm).symm
    · rcases List.mem_cons.mp hw with rfl | hw
      · exact (hlater v hv).2 heq
      · exact ih _ v hv w hw heq

/-! ## What is collected -/

/-- What is in the map was there or was added. -/
theorem lookup_addAll (shards : List (Pointer × ShardInfo)) : ∀ (m : Pointers) {p : Pointer}
    {sh : ShardInfo}, (m.addAll shards).lookup p = some sh →
      m.lookup p = some sh ∨ (p, sh) ∈ shards := by
  induction shards with
  | nil => exact fun m p sh h => .inl h
  | cons x shards ih =>
    intro m p sh h
    rcases ih (m.insert x.1 x.2) h with hm | hmem
    · by_cases hp : p = x.1
      · subst hp
        rw [AList.lookup_insert] at hm
        cases hm
        exact .inr List.mem_cons_self
      · rw [AList.lookup_insert_ne hp] at hm
        exact .inl hm
    · exact .inr (List.mem_cons_of_mem _ hmem)

theorem mem_addAll (m : Pointers) (shards : List (Pointer × ShardInfo)) {p : Pointer} :
    p ∈ m.addAll shards ↔ p ∈ m ∨ ∃ x ∈ shards, x.1 = p := by
  have hadd : ∀ (m : Pointers) (x : Pointer × ShardInfo),
      p ∈ m.insert x.1 x.2 ↔ p ∈ m ∨ x.1 = p := by
    intro m x
    rw [AList.mem_insert, or_comm, eq_comm]
  exact Lib.foldl_has_iff (p ∈ ·) hadd shards m

/-- **What has been collected is what the lookups have found.** -/
structure Collects (E : EmbeddedGroups) (overlaps : ShardGroupInfo → Time → Time → Bool)
    (tmin tmax : Time)
    (vs : List (Copy X × Source)) (m : Pointers) : Prop where
  found : ∀ p sh, m.lookup p = some sh → ∃ v ∈ vs, (p, sh) ∈ selected E overlaps tmin tmax v
  kept : ∀ v ∈ vs, ∀ x ∈ selected E overlaps tmin tmax v, x.1 ∈ m

/-- Nothing has been found before the first lookup. -/
theorem collects_nil : Collects E overlaps tmin tmax ([] : List (Copy X × Source)) ∅ where
  found p sh h := by
    rw [AList.lookup_empty] at h
    cases h
  kept v hv := absurd hv List.not_mem_nil

/-- By induction on the sources, for those that have been looked up before. -/
theorem collects_lookupSources (turns : List (Turn X)) :
    ∀ (c : Copy X) (before : List (Copy X × Source)) {m m' : Pointers},
      Collects E overlaps tmin tmax before m → lookupSources E overlaps tmin tmax turns c m = .ok m' →
      Collects E overlaps tmin tmax (before ++ views turns c) m' := by
  induction turns with
  | nil =>
    intro c before m m' hm h
    cases h
    rw [views, List.append_nil]
    exact hm
  | cons turn turns ih =>
    obtain ⟨refreshes, src⟩ := turn
    intro c before m m' hm h
    rw [lookupSources] at h
    split at h
    · cases h
    · next shards hshards =>
      have hselected : selected E overlaps tmin tmax (refreshes.foldl Copy.refresh c, src) = shards := by
        rw [selected, hshards]
      have hadded : Collects E overlaps tmin tmax
          (before ++ [(refreshes.foldl Copy.refresh c, src)]) (m.addAll shards) := by
        constructor
        · intro p sh hp
          rcases lookup_addAll shards m hp with hp | hp
          · obtain ⟨v, hv, hsel⟩ := hm.found p sh hp
            exact ⟨v, List.mem_append_left _ hv, hsel⟩
          · exact ⟨_, List.mem_append_right _ (List.mem_singleton_self _), hselected ▸ hp⟩
        · intro v hv x hx
          rw [mem_addAll]
          rcases List.mem_append.mp hv with hv | hv
          · exact .inl (hm.kept v hv x hx)
          · rw [List.mem_singleton.mp hv, hselected] at hx
            exact .inr ⟨x, hx, rfl⟩
      have hall := ih _ _ hadded h
      rw [List.append_assoc] at hall
      exact hall

/-- What is collected under a pointer that a lookup has found is the shard that it has found. -/
theorem Collects.lookup_eq {turns : List (Turn X)} {c : Copy X} {m : Pointers}
    (hm : Collects E overlaps tmin tmax (views turns c) m) {v : Copy X × Source}
    (hv : v ∈ views turns c) {x : Pointer × ShardInfo} (hx : x ∈ selected E overlaps tmin tmax v) :
    m.lookup x.1 = some x.2 := by
  obtain ⟨sh, hsh⟩ := Option.isSome_iff_exists.mp (AList.lookup_isSome.mpr (hm.kept v hv x hx))
  obtain ⟨w, hw, hsel⟩ := hm.found _ _ hsh
  obtain ⟨d, hd, hpv⟩ := selected_pointers hx
  obtain ⟨d', hd', hpw⟩ := selected_pointers hsel
  obtain ⟨hcopy, hderef⟩ := mem_pointers.mp hpv
  obtain ⟨hcopy', hderef'⟩ := mem_pointers.mp hpw
  -- the pointer is of one copy, so both were found in that
  have hsame : v.1 = w.1 := eq_of_number turns c v hv w hw (hcopy.symm.trans hcopy')
  rw [hsame, hd'] at hd
  cases hd
  rw [hderef] at hderef'
  rw [hsh, hderef']

end Lookups

/-- **When a shard is returned twice.**  Whatever the refreshes between the lookups of the sources,
    if the shard identifiers of each copy are unique, then the list that `ShardsByTimeRange` returns
    has no identifier twice, if and only if no two lookups in different copies find shards of the
    same identifier. -/
theorem shards_nodup_iff {X : Type} (E : EmbeddedGroups)
    (overlaps : ShardGroupInfo → Time → Time → Bool)
    {order : List ShardInfo → List ShardInfo} (horder : ∀ l, (order l).Perm l) (c : Copy X)
    (turns : List (Turn X)) (tmin tmax : Time)
    (hunique : ∀ v ∈ views turns c, v.1.data.UniqueShards) {a : List ShardInfo}
    (ha : shardsByTimeRange E overlaps order c turns tmin tmax = .ok a) :
    (a.map ShardInfo.id).Nodup ↔
      ∀ v ∈ views turns c, ∀ w ∈ views turns c, v.1.number ≠ w.1.number →
        ∀ x ∈ selected E overlaps tmin tmax v, ∀ y ∈ selected E overlaps tmin tmax w,
          x.2.id ≠ y.2.id := by
  rw [shardsByTimeRange] at ha
  split at ha
  · cases ha
  · next m hm =>
    cases ha
    have hcollects : Collects E overlaps tmin tmax (views turns c) m :=
      collects_lookupSources turns c [] collects_nil hm
    have hentries : ((order (m.entries.map Sigma.snd)).map ShardInfo.id).Nodup ↔
        (m.entries.map fun e => e.2.id).Nodup := by
      rw [((horder _).map _).nodup_iff, List.map_map]
      rfl
    rw [hentries, List.nodup_map_iff_inj_on m.nodupKeys.nodup]
    constructor
    · intro hinj v hv w hw hne x hx y hy hid
      have hx' := AList.mem_lookup_iff.mp (hcollects.lookup_eq hv hx)
      have hy' := AList.mem_lookup_iff.mp (hcollects.lookup_eq hw hy)
      have heq : x.1 = y.1 := congrArg Sigma.fst (hinj _ hx' _ hy' hid)
      obtain ⟨d, -, hpx⟩ := selected_pointers hx
      obtain ⟨d', -, hpy⟩ := selected_pointers hy
      have hnumber : v.1.number = w.1.number := by
        rw [← (mem_pointers.mp hpx).1, ← (mem_pointers.mp hpy).1, heq]
      exact hne hnumber
    · rintro hdisjoint ⟨p, sh⟩ hp ⟨q, sh'⟩ hq hid
      obtain ⟨v, hv, hx⟩ := hcollects.found p sh (AList.mem_lookup_iff.mpr hp)
      obtain ⟨w, hw, hy⟩ := hcollects.found q sh' (AList.mem_lookup_iff.mpr hq)
      have hnumber : v.1.number = w.1.number := by
        by_contra hne
        exact hdisjoint v hv w hw hne _ hx _ hy hid
      obtain ⟨d, hd, hpx⟩ := selected_pointers hx
      obtain ⟨d', hd', hpy⟩ := selected_pointers hy
      rw [← eq_of_number turns c v hv w hw hnumber] at hd' hpy
      rw [hd] at hd'
      cases hd'
      cases pointer_eq_of_id (hunique v hv d hd) hpx hpy hid
      rfl

/-- Data with one group, from 0 to 10, that has the shards 1 and 2. -/
def oneGroup : Data Unit :=
  { data := some
      { term := 1, index := 1, clusterID := 1
        databases := [{
          name := "db"
          retentionPolicies := [
            { name := "rp", replicaN := 1, duration := 0, shardGroupDuration := 10
              shardGroups := [
                { id := 1, startTime := 0, endTime := 10, deletedAt := 0
                  shards := [⟨1, []⟩, ⟨2, []⟩] }] }] }]
        maxShardGroupID := 1, maxShardID := 2, rest := () }
    metaNodes := [], dataNodes := [], users := [], roles := [], maxNodeID := 0 }

theorem oneGroup_uniqueShards : oneGroup.UniqueShards := by
  rintro m ⟨⟩
  decide

/-- `Overlaps`, as it is in the embedded package. -/
def overlapsRange (g : ShardGroupInfo) (min max : Time) : Bool :=
  g.startTime ≤ max ∧ min < g.endTime

/-- The source is named twice, and nothing comes in between. -/
theorem shards_nodup_calm : ∃ a,
    shardsByTimeRange findAndSort overlapsRange id ⟨0, oneGroup⟩
      [([], .measurement "db" "rp"), ([], .measurement "db" "rp")] 3 5 = .ok a ∧
      (a.map ShardInfo.id).Nodup := by
  have horder : ∀ l : List ShardInfo, (id l).Perm l := fun _ => .rfl
  refine ⟨_, rfl, (shards_nodup_iff findAndSort overlapsRange horder ⟨0, oneGroup⟩
    [([], .measurement "db" "rp"), ([], .measurement "db" "rp")] 3 5 ?_ rfl).mpr ?_⟩
  · intro v hv
    have hdata : v.1.data = oneGroup := by
      rcases List.mem_pair.mp hv with rfl | rfl <;> rfl
    rw [hdata]
    exact oneGroup_uniqueShards
  · intro v hv w hw hne
    rcases List.mem_pair.mp hv with rfl | rfl <;> rcases List.mem_pair.mp hw with rfl | rfl <;>
      exact absurd rfl hne

/-- **A refresh between two lookups, with the same data, and each shard is there twice.** -/
theorem refresh_duplicates_shard :
    oneGroup.UniqueShards ∧
      shardsByTimeRange findAndSort overlapsRange id ⟨0, oneGroup⟩
        [([], .measurement "db" "rp"), ([oneGroup], .measurement "db" "rp")] 3 5
        = .ok [⟨2, []⟩, ⟨1, []⟩, ⟨2, []⟩, ⟨1, []⟩] :=
  ⟨oneGroup_uniqueShards, rfl⟩

end InfluxCluster.Meta
