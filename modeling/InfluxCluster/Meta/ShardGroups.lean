/-
  Shard groups (`meta/data.go`, `CreateShardGroup`): which intervals of time a retention policy
  covers, and which identifiers its groups and shards get.

  THE GRID.  A group starts at its timestamp rounded down to a multiple of the policy's duration,
  counted from Go's zero time, and lasts for that duration.  So all groups that a policy ever gets
  are cells of one grid: two of them are the same cell, or disjoint.  A call looks for a group that
  is not deleted and contains the timestamp first.  Such a group would be the cell itself, so a new
  cell is never one that a group still covers.  A deleted group may be covered again, by a new one.

  IDENTIFIERS are counted up over all policies.  Groups are marked when they are deleted and never
  leave the data, so the identifiers that were ever issued are those that are there.

  The embedded package has the lookups and the sorting (`EmbeddedGroups`).  It finds a policy by
  names, and in it a group that is not deleted and contains the timestamp if there is one, and its
  sorting is by start (`EmbeddedGroups.Lawful`).
-/
import Mathlib.Data.List.Pairwise
import Mathlib.Data.List.Nodup
import Mathlib.Data.List.Sort
import InfluxCluster.Meta.Placement
import InfluxCluster.Meta.StoreFSM

namespace InfluxCluster.Meta

/-! ## The embedded package -/

/-- The group is not deleted. -/
def ShardGroupInfo.Live (sg : ShardGroupInfo) : Prop := sg.deletedAt = 0

/-- The group is not deleted, and contains the timestamp. -/
def ShardGroupInfo.Covers (timestamp : Time) (sg : ShardGroupInfo) : Prop :=
  sg.Live ∧ sg.startTime ≤ timestamp ∧ timestamp < sg.endTime

instance (sg : ShardGroupInfo) : Decidable sg.Live := inferInstanceAs (Decidable (_ = _))

instance (timestamp : Time) (sg : ShardGroupInfo) : Decidable (sg.Covers timestamp) :=
  inferInstanceAs (Decidable (_ ∧ _ ∧ _))

/-- The names of a database and of its policies. -/
def DatabaseInfo.names (db : DatabaseInfo) : String × List String :=
  (db.name, db.retentionPolicies.map RetentionPolicyInfo.name)

/-- What is used of the embedded package. -/
structure EmbeddedGroups where
  /-- `Data.RetentionPolicy`: where the policy is that it returns a pointer to, by the places of its
      database and of the policy in it. -/
  retentionPolicy : List DatabaseInfo → String → String → Except MetaErr (Option (Nat × Nat))
  /-- `RetentionPolicyInfo.ShardGroupByTimestamp`. -/
  shardGroupByTimestamp : RetentionPolicyInfo → Time → Option ShardGroupInfo
  /-- `sort.Sort(meta.ShardGroupInfos(…))`. -/
  sort : List ShardGroupInfo → List ShardGroupInfo

/-- What its documentation says. -/
structure EmbeddedGroups.Lawful (E : EmbeddedGroups) : Prop where
  byNames : ∀ {dbs dbs' : List DatabaseInfo}, dbs.map DatabaseInfo.names = dbs'.map DatabaseInfo.names →
    E.retentionPolicy dbs = E.retentionPolicy dbs'
  found : ∀ {rpi timestamp sg}, E.shardGroupByTimestamp rpi timestamp = some sg →
    sg ∈ rpi.shardGroups ∧ sg.Covers timestamp
  finds : ∀ {rpi timestamp}, (∃ sg ∈ rpi.shardGroups, sg.Covers timestamp) →
    (E.shardGroupByTimestamp rpi timestamp).isSome
  perm : ∀ groups, (E.sort groups).Perm groups
  sorted : ∀ groups, (E.sort groups).Pairwise fun a b => a.startTime ≤ b.startTime

/-! ## `CreateShardGroup` -/

/-- `timestamp.Truncate(d)`. -/
def truncate (timestamp d : Int) : Int := if d ≤ 0 then timestamp else timestamp - timestamp % d

section Create

variable {X : Type}

/-- What is at the place, if there is anything. -/
def MetaData.policyAt (m : MetaData X) (place : Nat × Nat) : Option RetentionPolicyInfo :=
  m.databases[place.1]?.bind fun db => db.retentionPolicies[place.2]?

/-- `data.Data.RetentionPolicy`. -/
def MetaData.retentionPolicy (m : MetaData X) (E : EmbeddedGroups) (database policy : String) :
    Except MetaErr (Option RetentionPolicyInfo) :=
  (E.retentionPolicy m.databases database policy).map fun place => place.bind m.policyAt

/-- A change of what is at the place. -/
def MetaData.updateAt (m : MetaData X) (place : Nat × Nat)
    (f : RetentionPolicyInfo → RetentionPolicyInfo) : MetaData X :=
  { m with
    databases := m.databases.modify place.1 fun db =>
      { db with retentionPolicies := db.retentionPolicies.modify place.2 f } }

/-- A change of the policy that `RetentionPolicy` returns a pointer to. -/
def MetaData.updatePolicy (m : MetaData X) (E : EmbeddedGroups) (database policy : String)
    (f : RetentionPolicyInfo → RetentionPolicyInfo) : MetaData X :=
  { m with
    databases := match E.retentionPolicy m.databases database policy with
      | .ok (some place) => (m.updateAt place f).databases
      | _ => m.databases }

/-- "Require at least one replica but no more replicas than nodes." -/
def replicas (replicaN : Int) (nodes : Nat) : Int :=
  if replicaN = 0 then 1 else if nodes < replicaN then nodes else replicaN

/-- `generatedShards`: new shards, counted on from the last identifier. -/
def generatedShards : Nat → UInt64 → List ShardInfo × UInt64
  | 0, maxShardID => ([], maxShardID)
  | n + 1, maxShardID =>
    let (shards, last) := generatedShards n (maxShardID + 1)
    ({ id := maxShardID + 1, owners := [] } :: shards, last)

/-- "Assign data nodes to shards via round robin", from the node at `nodeIndex` on. -/
def assignOwners (nodes : List NodeInfo) (replicaN : Nat) : Nat → List ShardInfo → List ShardInfo
  | _, [] => []
  | nodeIndex, si :: shards =>
    { si with
      owners := si.owners ++ (List.range replicaN).map fun j =>
        { nodeID := ((nodes[(nodeIndex + j) % nodes.length]?).map NodeInfo.id).getD 0 } }
      :: assignOwners nodes replicaN (nodeIndex + replicaN) shards

/-- The group that is made for the timestamp; its shards have the identifiers behind
    `maxShardID`. -/
def newShardGroup (d : Data X) (m : MetaData X) (rpi : RetentionPolicyInfo) (timestamp : Time)
    (replicaN : Int) (shardN : Nat) : ShardGroupInfo :=
  { id := m.maxShardGroupID + 1
    startTime := truncate timestamp rpi.shardGroupDuration
    endTime := truncate timestamp rpi.shardGroupDuration + rpi.shardGroupDuration
    deletedAt := 0
    shards := assignOwners d.dataNodes replicaN.toNat (m.index.toNat % d.dataNodes.length)
      (generatedShards shardN m.maxShardID).1 }

/-- The data with the group; `groups` is what becomes of those of the policy. -/
def MetaData.addShardGroup (m : MetaData X) (E : EmbeddedGroups) (database policy : String)
    (sgi : ShardGroupInfo) (maxShardID : UInt64) : MetaData X :=
  ({ m with maxShardGroupID := m.maxShardGroupID + 1, maxShardID := maxShardID } :
    MetaData X).updatePolicy E database policy fun rpi =>
      { rpi with shardGroups := E.sort (rpi.shardGroups ++ [sgi]) }

/-- `CreateShardGroup`. -/
def createShardGroup (E : EmbeddedGroups) (database policy : String) (timestamp : Time) :
    EStateM Stop (Data X) Unit := fun d =>
  if d.dataNodes.length = 0 then .ok () d
  else
    match d.data with
    | none => .error .panicked d
    | some m =>
      match m.retentionPolicy E database policy with
      | .error e => .error (.err e) d
      | .ok none => .error (.err (.embedded ("retention policy not found: " ++ policy))) d
      | .ok (some rpi) =>
        if (E.shardGroupByTimestamp rpi timestamp).isSome then .ok () d
        else
          let replicaN := replicas rpi.replicaN d.dataNodes.length
          let shardN := (d.dataNodes.length : Int).tdiv replicaN
          -- the identifier is taken before the shards are made, and a slice of negative length panics
          if shardN < 0 then
            .error .panicked
              { d with data := some { m with maxShardGroupID := m.maxShardGroupID + 1 } }
          else
            .ok () { d with
              data := some (m.addShardGroup E database policy
                (newShardGroup d m rpi timestamp replicaN shardN.toNat)
                (generatedShards shardN.toNat m.maxShardID).2) }

end Create

/-! ## The grid -/

section Grid

variable {a b d t : Int}

theorem truncate_eq (hd : 0 < d) : truncate t d = t - t % d := if_neg (by omega)

theorem truncate_le (hd : 0 < d) : truncate t d ≤ t := by
  have hmod := Int.emod_nonneg t (by omega : d ≠ 0)
  rw [truncate_eq hd]
  omega

/-- The time lies in the cell that starts where it is truncated to. -/
theorem lt_truncate_add (hd : 0 < d) : t < truncate t d + d := by
  have hmod := Int.emod_lt_of_pos t hd
  rw [truncate_eq hd]
  omega

theorem dvd_truncate (hd : 0 < d) : d ∣ truncate t d := by
  rw [truncate_eq hd]
  exact Int.dvd_self_sub_emod

/-- Truncation never goes forward, also with a duration that is not positive. -/
theorem truncate_le_self (t d : Int) : truncate t d ≤ t := by
  by_cases hd : d ≤ 0
  · exact (if_pos hd).le
  · exact truncate_le (Int.not_le.mp hd)

/-- The start of a cell is where it is. -/
theorem truncate_of_dvd (t : Int) (h : d ∣ t) : truncate t d = t := by
  rw [truncate, Int.emod_eq_zero_of_dvd h, Int.sub_zero, ite_self]

theorem truncate_truncate (t d : Int) : truncate (truncate t d) d = truncate t d := by
  by_cases hd : d ≤ 0
  · exact if_pos hd
  · exact truncate_of_dvd _ (dvd_truncate (Int.not_le.mp hd))

/-- Cells of the grid that start at different times do not meet. -/
theorem add_le_of_lt (ha : d ∣ a) (hb : d ∣ b) (hlt : a < b) : a + d ≤ b := by
  have hle : d ≤ b - a := Int.le_of_dvd (by omega) (Int.dvd_sub hb ha)
  omega

/-- A time is in the cell that starts where it is truncated to. -/
theorem truncate_eq_of_cell (hd : 0 < d) (ha : d ∣ a) (hle : a ≤ t) (hlt : t < a + d) :
    truncate t d = a := by
  have hbefore := lt_truncate_add (t := t) hd
  have hafter := truncate_le (t := t) hd
  rcases Int.lt_trichotomy (truncate t d) a with h | h | h
  · have := add_le_of_lt (dvd_truncate hd) ha h
    omega
  · exact h
  · have := add_le_of_lt ha (dvd_truncate hd) h
    omega

end Grid

/-! ## Policies -/

/-- **What the groups of a policy look like**: those that are not deleted are cells of the grid,
    each at most once, and all are sorted by start. -/
structure PolicyOK (rpi : RetentionPolicyInfo) : Prop where
  duration_pos : 0 < rpi.shardGroupDuration
  cell : ∀ sg ∈ rpi.shardGroups, sg.Live → rpi.shardGroupDuration ∣ sg.startTime ∧
    sg.endTime = sg.startTime + rpi.shardGroupDuration
  apart : rpi.shardGroups.Pairwise fun a b => a.Live → b.Live → a.startTime ≠ b.startTime
  sorted : rpi.shardGroups.Pairwise fun a b => a.startTime ≤ b.startTime

/-- **The intervals of a policy**: the groups that are not deleted last for its duration, and each
    ends before the next one starts. -/
structure Intervals (rpi : RetentionPolicyInfo) : Prop where
  exact : ∀ sg ∈ rpi.shardGroups, sg.Live → sg.endTime = sg.startTime + rpi.shardGroupDuration
  disjoint : rpi.shardGroups.Pairwise fun a b => a.Live → b.Live → a.endTime ≤ b.startTime

/-- The deletion of groups: they are marked. -/
def ShardGroupInfo.mark (which : UInt64 → Bool) (now : Time) (sg : ShardGroupInfo) : ShardGroupInfo :=
  if which sg.id then { sg with deletedAt := now } else sg

def RetentionPolicyInfo.mark (which : UInt64 → Bool) (now : Time) (rpi : RetentionPolicyInfo) :
    RetentionPolicyInfo :=
  { rpi with shardGroups := rpi.shardGroups.map (ShardGroupInfo.mark which now) }

section Policy

variable {rpi : RetentionPolicyInfo} {timestamp now : Time} {which : UInt64 → Bool}

/-- A policy in order has disjoint groups. -/
theorem PolicyOK.intervals (h : PolicyOK rpi) : Intervals rpi := by
  refine ⟨fun sg hsg hlive => (h.cell sg hsg hlive).2, ?_⟩
  refine List.Pairwise.imp_of_mem ?_ (h.sorted.and h.apart)
  intro a b ha hb ⟨hle, hne⟩ halive hblive
  obtain ⟨hadvd, haend⟩ := h.cell a ha halive
  obtain ⟨hbdvd, -⟩ := h.cell b hb hblive
  rw [haend]
  exact add_le_of_lt hadvd hbdvd (Int.lt_iff_le_and_ne.mpr ⟨hle, hne halive hblive⟩)

/-- At most one group covers a timestamp. -/
theorem Intervals.countP_le_one (h : Intervals rpi) :
    rpi.shardGroups.countP (fun sg => sg.Covers timestamp) ≤ 1 := by
  have hpair : (rpi.shardGroups.filter fun sg => sg.Covers timestamp).Pairwise fun _ _ => False := by
    refine List.Pairwise.imp_of_mem ?_ (h.disjoint.filter _)
    intro a b ha hb hab
    obtain ⟨halive, -, haend⟩ := of_decide_eq_true (List.mem_filter.mp ha).2
    obtain ⟨hblive, hbstart, -⟩ := of_decide_eq_true (List.mem_filter.mp hb).2
    -- the timestamp would be before the end of the first, and not before the start of the second
    exact Int.lt_irrefl _ (Int.lt_of_lt_of_le haend (Int.le_trans (hab halive hblive) hbstart))
  rw [List.countP_eq_length_filter]
  rcases hl : rpi.shardGroups.filter (fun sg => sg.Covers timestamp) with _ | ⟨a, _ | ⟨b, l⟩⟩
  · rw [hl]
    exact Nat.zero_le 1
  · rw [hl]
    exact Nat.le_refl 1
  · rw [hl] at hpair
    exact ((List.pairwise_cons.mp hpair).1 b List.mem_cons_self).elim

/-- A timestamp that is covered is covered once. -/
theorem Intervals.countP_eq_one (h : Intervals rpi) {sg : ShardGroupInfo}
    (hsg : sg ∈ rpi.shardGroups) (hcovers : sg.Covers timestamp) :
    rpi.shardGroups.countP (fun sg => sg.Covers timestamp) = 1 := by
  have hle : rpi.shardGroups.countP (fun sg => sg.Covers timestamp) ≤ 1 := h.countP_le_one
  have hpos : 0 < rpi.shardGroups.countP fun sg => sg.Covers timestamp :=
    List.countP_pos_iff.mpr ⟨sg, hsg, decide_eq_true hcovers⟩
  omega

/-- Marking does not revive a group. -/
theorem ShardGroupInfo.live_of_mark (hnow : now ≠ 0) {sg : ShardGroupInfo}
    (h : (sg.mark which now).Live) : sg.Live := by
  rw [ShardGroupInfo.mark] at h
  split_ifs at h
  · exact absurd h hnow
  · exact h

@[simp] theorem ShardGroupInfo.mark_id (sg : ShardGroupInfo) : (sg.mark which now).id = sg.id := by
  rw [ShardGroupInfo.mark]
  split_ifs <;> rfl

@[simp] theorem ShardGroupInfo.mark_startTime (sg : ShardGroupInfo) :
    (sg.mark which now).startTime = sg.startTime := by
  rw [ShardGroupInfo.mark]
  split_ifs <;> rfl

@[simp] theorem ShardGroupInfo.mark_endTime (sg : ShardGroupInfo) :
    (sg.mark which now).endTime = sg.endTime := by
  rw [ShardGroupInfo.mark]
  split_ifs <;> rfl

@[simp] theorem ShardGroupInfo.mark_shards (sg : ShardGroupInfo) :
    (sg.mark which now).shards = sg.shards := by
  rw [ShardGroupInfo.mark]
  split_ifs <;> rfl

/-- Marking groups as deleted keeps a policy in order. -/
theorem PolicyOK.mark (h : PolicyOK rpi) (hnow : now ≠ 0) : PolicyOK (rpi.mark which now) := by
  refine ⟨h.duration_pos, fun sg hsg hlive => ?_, ?_, ?_⟩
  · obtain ⟨sg', hsg', rfl⟩ := List.mem_map.mp hsg
    rw [ShardGroupInfo.mark_startTime, ShardGroupInfo.mark_endTime]
    exact h.cell sg' hsg' (ShardGroupInfo.live_of_mark hnow hlive)
  · refine List.pairwise_map.mpr (h.apart.imp fun hab ha hb => ?_)
    rw [ShardGroupInfo.mark_startTime, ShardGroupInfo.mark_startTime]
    exact hab (ShardGroupInfo.live_of_mark hnow ha) (ShardGroupInfo.live_of_mark hnow hb)
  · refine List.pairwise_map.mpr (h.sorted.imp fun hab => ?_)
    rw [ShardGroupInfo.mark_startTime, ShardGroupInfo.mark_startTime]
    exact hab

variable {E : EmbeddedGroups}

/-- **A new group is a new cell**, as long as no group covers the timestamp. -/
theorem PolicyOK.add (hE : E.Lawful) (h : PolicyOK rpi)
    (hnone : ¬ ∃ sg ∈ rpi.shardGroups, sg.Covers timestamp) {sgi : ShardGroupInfo}
    (hstart : sgi.startTime = truncate timestamp rpi.shardGroupDuration)
    (hend : sgi.endTime = sgi.startTime + rpi.shardGroupDuration) :
    PolicyOK { rpi with shardGroups := E.sort (rpi.shardGroups ++ [sgi]) } := by
  have hd := h.duration_pos
  have hperm := hE.perm (rpi.shardGroups ++ [sgi])
  -- a group that starts there would cover the timestamp
  have hnew : ∀ sg ∈ rpi.shardGroups, sg.Live → sg.startTime ≠ sgi.startTime := by
    intro sg hsg hlive heq
    refine hnone ⟨sg, hsg, hlive, ?_, ?_⟩
    · rw [heq, hstart]
      exact truncate_le hd
    · rw [(h.cell sg hsg hlive).2, heq, hstart]
      exact lt_truncate_add hd
  refine ⟨hd, fun sg hsg hlive => ?_, ?_, hE.sorted _⟩
  · rcases List.mem_append.mp (hperm.mem_iff.mp hsg) with hsg | hsg
    · exact h.cell sg hsg hlive
    · rw [List.mem_singleton.mp hsg]
      refine ⟨?_, hend⟩
      rw [hstart]
      exact dvd_truncate hd
  · refine (hperm.pairwise_iff fun hab hb ha => (hab ha hb).symm).mpr ?_
    refine List.pairwise_append.mpr ⟨h.apart, List.pairwise_singleton _ _, ?_⟩
    intro a ha b hb halive _
    rw [List.mem_singleton.mp hb]
    exact hnew a ha halive

end Policy

/-! ## Identifiers -/

section Identifiers

theorem generatedShards_length (n : Nat) (maxShardID : UInt64) :
    (generatedShards n maxShardID).1.length = n := by
  induction n generalizing maxShardID with
  | zero => rfl
  | succ n ih => exact congrArg (· + 1) (ih (maxShardID + 1))

/-- The shards are numbered from the last identifier on. -/
theorem generatedShards_ids (n : Nat) {maxShardID : UInt64} (hmax : maxShardID.toNat + n < 2 ^ 64) :
    (generatedShards n maxShardID).2.toNat = maxShardID.toNat + n ∧
      ((generatedShards n maxShardID).1.map ShardInfo.id).Nodup ∧
      ∀ s ∈ (generatedShards n maxShardID).1,
        maxShardID < s.id ∧ s.id ≤ (generatedShards n maxShardID).2 := by
  induction n generalizing maxShardID with
  | zero => exact ⟨rfl, List.nodup_nil, fun s hs => absurd hs List.not_mem_nil⟩
  | succ n ih =>
    have hnext : (maxShardID + 1).toNat = maxShardID.toNat + 1 := by
      rw [UInt64.toNat_add]
      exact Nat.mod_eq_of_lt (by show _ + 1 < 2 ^ 64; omega)
    have hrest : (maxShardID + 1).toNat + n < 2 ^ 64 := by omega
    obtain ⟨hlast, hnodup, hids⟩ := ih hrest
    have hlt : maxShardID < maxShardID + 1 := UInt64.lt_iff_toNat_lt.mpr (by omega)
    refine ⟨?_, ?_, fun s hs => ?_⟩
    · show (generatedShards n (maxShardID + 1)).2.toNat = _
      omega
    · refine List.nodup_cons.mpr ⟨fun hmem => ?_, hnodup⟩
      obtain ⟨s, hs, heq⟩ := List.mem_map.mp hmem
      exact absurd (heq ▸ (hids s hs).1) (UInt64.lt_irrefl _)
    · rcases List.mem_cons.mp hs with rfl | hs
      · refine ⟨hlt, UInt64.le_iff_toNat_le.mpr ?_⟩
        show (maxShardID + 1).toNat ≤ (generatedShards n (maxShardID + 1)).2.toNat
        omega
      · obtain ⟨hgt, hle⟩ := hids s hs
        exact ⟨UInt64.lt_trans hlt hgt, hle⟩

/-- Owners do not change the identifiers. -/
theorem assignOwners_ids (nodes : List NodeInfo) (replicaN nodeIndex : Nat) (shards : List ShardInfo) :
    (assignOwners nodes replicaN nodeIndex shards).map ShardInfo.id = shards.map ShardInfo.id := by
  induction shards generalizing nodeIndex with
  | nil => rfl
  | cons si shards ih => exact congrArg (si.id :: ·) (ih (nodeIndex + replicaN))

end Identifiers

/-! ## The data -/

/-- A list before and after the change of one element. -/
theorem modify_split {α : Type} {l : List α} {i : Nat} {a : α} (h : l[i]? = some a) (f : α → α) :
    ∃ l₁ l₂, l = l₁ ++ a :: l₂ ∧ l.modify i f = l₁ ++ f a :: l₂ := by
  obtain ⟨hi, rfl⟩ := List.getElem?_eq_some_iff.mp h
  refine ⟨l.take i, l.drop (i + 1), ?_, List.modify_eq_take_cons_drop hi⟩
  rw [← List.drop_eq_getElem_cons hi, List.take_append_drop]

section Data

variable {X : Type}

/-- The policies of all databases. -/
def MetaData.policies (m : MetaData X) : List RetentionPolicyInfo :=
  m.databases.flatMap DatabaseInfo.retentionPolicies

/-- The shards of all groups. -/
def MetaData.shards (m : MetaData X) : List ShardInfo := m.groups.flatMap ShardGroupInfo.shards

/-- The groups, policy by policy. -/
theorem MetaData.groups_eq (m : MetaData X) :
    m.groups = m.policies.flatMap RetentionPolicyInfo.shardGroups := by
  rw [MetaData.groups, MetaData.policies, List.flatMap_assoc]

/-- **The identifiers** of all groups and of all shards are different, and counted. -/
structure IDsOK (m : MetaData X) : Prop where
  groups : (m.groups.map ShardGroupInfo.id).Nodup
  groups_le : ∀ sg ∈ m.groups, sg.id ≤ m.maxShardGroupID
  shards : (m.shards.map ShardInfo.id).Nodup
  shards_le : ∀ s ∈ m.shards, s.id ≤ m.maxShardID

/-- A policy that is found has a place. -/
theorem MetaData.retentionPolicy_eq_some {m : MetaData X} {E : EmbeddedGroups}
    {database policy : String} {rpi : RetentionPolicyInfo}
    (h : m.retentionPolicy E database policy = .ok (some rpi)) :
    ∃ place, E.retentionPolicy m.databases database policy = .ok (some place) ∧
      m.policyAt place = some rpi := by
  rw [MetaData.retentionPolicy] at h
  rcases hp : E.retentionPolicy m.databases database policy with err | _ | place
  · rw [hp] at h
    cases h
  · rw [hp] at h
    cases h
  · rw [hp] at h
    exact ⟨place, rfl, Except.ok.inj h⟩

/-- A change at a place changes one policy. -/
theorem MetaData.updateAt_split {m : MetaData X} {place : Nat × Nat} {rpi : RetentionPolicyInfo}
    (h : m.policyAt place = some rpi) {f : RetentionPolicyInfo → RetentionPolicyInfo}
    (hf : (f rpi).name = rpi.name) :
    (∃ l₁ l₂, m.policies = l₁ ++ rpi :: l₂ ∧ (m.updateAt place f).policies = l₁ ++ f rpi :: l₂) ∧
      (m.updateAt place f).databases.map DatabaseInfo.names = m.databases.map DatabaseInfo.names ∧
      (m.updateAt place f).policyAt place = some (f rpi) := by
  obtain ⟨db, hdb, hrpi⟩ := Option.bind_eq_some_iff.mp h
  obtain ⟨q₁, q₂, hq, hq'⟩ := modify_split hrpi f
  obtain ⟨l₁, l₂, hl, hl'⟩ := modify_split hdb fun db =>
    { db with retentionPolicies := db.retentionPolicies.modify place.2 f }
  refine ⟨⟨l₁.flatMap DatabaseInfo.retentionPolicies ++ q₁,
    q₂ ++ l₂.flatMap DatabaseInfo.retentionPolicies, ?_, ?_⟩, ?_, ?_⟩
  · rw [MetaData.policies, hl, List.flatMap_append, List.flatMap_cons, hq]
    simp only [List.append_assoc, List.cons_append]
  · rw [MetaData.policies, MetaData.updateAt, hl', List.flatMap_append, List.flatMap_cons]
    dsimp only
    rw [hq']
    simp only [List.append_assoc, List.cons_append]
  · -- a policy keeps its name
    rw [MetaData.updateAt, hl', hl, List.map_append, List.map_append, List.map_cons, List.map_cons]
    dsimp only [DatabaseInfo.names]
    rw [hq', hq, List.map_append, List.map_append, List.map_cons, List.map_cons, hf]
  · rw [MetaData.policyAt, MetaData.updateAt]
    dsimp only
    rw [List.getElem?_modify_eq, hdb]
    show (db.retentionPolicies.modify place.2 f)[place.2]? = _
    rw [List.getElem?_modify_eq, hrpi]
    rfl

/-- A change of the policy that is found changes one policy. -/
theorem updatePolicy_split {m : MetaData X} {E : EmbeddedGroups} (hE : E.Lawful)
    {database policy : String} {rpi : RetentionPolicyInfo}
    {f : RetentionPolicyInfo → RetentionPolicyInfo}
    (h : m.retentionPolicy E database policy = .ok (some rpi)) (hf : (f rpi).name = rpi.name) :
    ∃ l₁ l₂, m.policies = l₁ ++ rpi :: l₂ ∧
      (m.updatePolicy E database policy f).policies = l₁ ++ f rpi :: l₂ ∧
      (m.updatePolicy E database policy f).retentionPolicy E database policy = .ok (some (f rpi)) := by
  obtain ⟨place, hplace, hrpi⟩ := MetaData.retentionPolicy_eq_some h
  obtain ⟨⟨l₁, l₂, hl, hl'⟩, hnames, hat⟩ := MetaData.updateAt_split hrpi hf
  have hupdate : m.updatePolicy E database policy f = m.updateAt place f := by
    rw [MetaData.updatePolicy, hplace]
    rfl
  rw [hupdate]
  refine ⟨l₁, l₂, hl, hl', ?_⟩
  rw [MetaData.retentionPolicy, hE.byNames hnames, hplace]
  exact congrArg Except.ok hat

/-- The policy that is found is one of the policies. -/
theorem mem_policies_of_retentionPolicy {m : MetaData X} {E : EmbeddedGroups}
    {database policy : String} {rpi : RetentionPolicyInfo}
    (h : m.retentionPolicy E database policy = .ok (some rpi)) : rpi ∈ m.policies := by
  obtain ⟨place, -, hrpi⟩ := MetaData.retentionPolicy_eq_some h
  obtain ⟨db, hdb, hrpi⟩ := Option.bind_eq_some_iff.mp hrpi
  exact List.mem_flatMap.mpr ⟨db, List.mem_of_getElem? hdb, List.mem_of_getElem? hrpi⟩

variable {E : EmbeddedGroups} {m : MetaData X} {database policy : String} {rpi : RetentionPolicyInfo}
  {sgi : ShardGroupInfo}

/-- The policies after one more group. -/
theorem addShardGroup_split (hE : E.Lawful) (h : m.retentionPolicy E database policy = .ok (some rpi))
    (sgi : ShardGroupInfo) (maxShardID : UInt64) :
    ∃ l₁ l₂, m.policies = l₁ ++ rpi :: l₂ ∧
      (m.addShardGroup E database policy sgi maxShardID).policies =
        l₁ ++ { rpi with shardGroups := E.sort (rpi.shardGroups ++ [sgi]) } :: l₂ ∧
      (m.addShardGroup E database policy sgi maxShardID).retentionPolicy E database policy =
        .ok (some { rpi with shardGroups := E.sort (rpi.shardGroups ++ [sgi]) }) := by
  have h' : ({ m with maxShardGroupID := m.maxShardGroupID + 1, maxShardID := maxShardID } :
      MetaData X).retentionPolicy E database policy = .ok (some rpi) := h
  exact updatePolicy_split hE
    (f := fun rpi => { rpi with shardGroups := E.sort (rpi.shardGroups ++ [sgi]) }) h' rfl

/-- The groups after one more. -/
theorem addShardGroup_groups (hE : E.Lawful)
    (h : m.retentionPolicy E database policy = .ok (some rpi)) (sgi : ShardGroupInfo)
    (maxShardID : UInt64) :
    (m.addShardGroup E database policy sgi maxShardID).groups.Perm (sgi :: m.groups) := by
  obtain ⟨l₁, l₂, hl, hl', -⟩ := addShardGroup_split hE h sgi maxShardID
  rw [MetaData.groups_eq, hl', MetaData.groups_eq, hl, List.flatMap_append, List.flatMap_append,
    List.flatMap_cons, List.flatMap_cons]
  -- the new group stands somewhere among those of its policy
  have hsort : (E.sort (rpi.shardGroups ++ [sgi])).Perm (sgi :: rpi.shardGroups) :=
    (hE.perm _).trans List.perm_append_comm
  refine ((hsort.append_right _).append_left _).trans ?_
  exact List.perm_middle

/-- The shards after one more group. -/
theorem addShardGroup_shards (hE : E.Lawful)
    (h : m.retentionPolicy E database policy = .ok (some rpi)) (sgi : ShardGroupInfo)
    (maxShardID : UInt64) :
    (m.addShardGroup E database policy sgi maxShardID).shards.Perm (sgi.shards ++ m.shards) :=
  (addShardGroup_groups hE h sgi maxShardID).flatMap_right _

/-- **One more group keeps the identifiers different**, if its own are new. -/
theorem IDsOK.add (hE : E.Lawful) (hok : IDsOK m)
    (h : m.retentionPolicy E database policy = .ok (some rpi)) {maxShardID : UInt64}
    (hid : sgi.id = m.maxShardGroupID + 1) (hmax : m.maxShardGroupID < m.maxShardGroupID + 1)
    (hmono : m.maxShardID ≤ maxShardID) (hshards : (sgi.shards.map ShardInfo.id).Nodup)
    (hnew : ∀ s ∈ sgi.shards, m.maxShardID < s.id ∧ s.id ≤ maxShardID) :
    IDsOK (m.addShardGroup E database policy sgi maxShardID) := by
  have hgroupsPerm := addShardGroup_groups hE h sgi maxShardID
  have hshardsPerm := addShardGroup_shards hE h sgi maxShardID
  refine ⟨?_, fun sg hsg => ?_, ?_, fun s hs => ?_⟩
  · refine (hgroupsPerm.map ShardGroupInfo.id).nodup_iff.mpr ?_
    refine List.nodup_cons.mpr ⟨fun hmem => ?_, hok.groups⟩
    obtain ⟨sg, hsg, heq⟩ := List.mem_map.mp hmem
    have hle := hok.groups_le sg hsg
    rw [heq, hid] at hle
    exact UInt64.not_le.mpr hmax hle
  · show sg.id ≤ m.maxShardGroupID + 1
    rcases List.mem_cons.mp (hgroupsPerm.mem_iff.mp hsg) with rfl | hsg
    · rw [hid]
      exact UInt64.le_refl _
    · exact UInt64.le_trans (hok.groups_le sg hsg) (UInt64.le_of_lt hmax)
  · rw [(hshardsPerm.map ShardInfo.id).nodup_iff, List.map_append]
    refine List.Nodup.append hshards hok.shards fun id hid hid' => ?_
    obtain ⟨s, hs, rfl⟩ := List.mem_map.mp hid
    obtain ⟨s', hs', heq⟩ := List.mem_map.mp hid'
    have hle := hok.shards_le s' hs'
    rw [heq] at hle
    exact UInt64.not_le.mpr (hnew s hs).1 hle
  · show s.id ≤ maxShardID
    rcases List.mem_append.mp (hshardsPerm.mem_iff.mp hs) with hs | hs
    · exact (hnew s hs).2
    · exact UInt64.le_trans (hok.shards_le s hs) hmono

/-! ## Deletions -/

def DatabaseInfo.mark (which : UInt64 → Bool) (now : Time) (db : DatabaseInfo) : DatabaseInfo :=
  { db with retentionPolicies := db.retentionPolicies.map (RetentionPolicyInfo.mark which now) }

/-- The groups with these identifiers are deleted. -/
def MetaData.mark (which : UInt64 → Bool) (now : Time) (m : MetaData X) : MetaData X :=
  { m with databases := m.databases.map (DatabaseInfo.mark which now) }

variable {which : UInt64 → Bool} {now : Time}

theorem MetaData.mark_policies (m : MetaData X) :
    (m.mark which now).policies = m.policies.map (RetentionPolicyInfo.mark which now) := by
  rw [MetaData.policies, MetaData.mark, MetaData.policies, List.flatMap_map, List.map_flatMap]
  rfl

theorem MetaData.mark_groups (m : MetaData X) :
    (m.mark which now).groups = m.groups.map (ShardGroupInfo.mark which now) := by
  rw [MetaData.groups_eq, MetaData.mark_policies, MetaData.groups_eq, List.flatMap_map, List.map_flatMap]
  rfl

/-- A group that is marked keeps its shards. -/
theorem MetaData.mark_shards (m : MetaData X) : (m.mark which now).shards = m.shards := by
  rw [MetaData.shards, MetaData.mark_groups, MetaData.shards, List.flatMap_map]
  simp only [ShardGroupInfo.mark_shards]

/-- And its identifier. -/
theorem MetaData.mark_groupIDs (m : MetaData X) :
    (m.mark which now).groups.map ShardGroupInfo.id = m.groups.map ShardGroupInfo.id := by
  have hids : ShardGroupInfo.id ∘ ShardGroupInfo.mark which now = ShardGroupInfo.id :=
    funext ShardGroupInfo.mark_id
  rw [MetaData.mark_groups, List.map_map, hids]

/-- **Deletions keep the identifiers.** -/
theorem IDsOK.mark (hok : IDsOK m) : IDsOK (m.mark which now) := by
  refine ⟨?_, fun sg hsg => ?_, ?_, ?_⟩
  · rw [MetaData.mark_groupIDs]
    exact hok.groups
  · rw [MetaData.mark_groups] at hsg
    obtain ⟨sg', hsg', rfl⟩ := List.mem_map.mp hsg
    rw [ShardGroupInfo.mark_id]
    exact hok.groups_le sg' hsg'
  · rw [MetaData.mark_shards]
    exact hok.shards
  · rw [MetaData.mark_shards]
    exact hok.shards_le

/-! ## Runs -/

/-- A call, or the deletion of groups. -/
inductive GroupOp
  | create (database policy : String) (timestamp : Time)
  | delete (which : UInt64 → Bool) (now : Time)

/-- One of these; a call that fails may be followed by others, unless it panicked.  The time of a
    deletion is not the zero time. -/
def GroupOp.step (E : EmbeddedGroups) (d : Data X) : GroupOp → Option (Data X)
  | .create database policy timestamp => outcome (createShardGroup E database policy timestamp d)
  | .delete which now =>
    if now = 0 then none else some { d with data := d.data.map (MetaData.mark which now) }

variable {d d' : Data X} {timestamp : Time}

/-- A call that returns nil has found the policy, and a group for the timestamp or made one. -/
theorem createShardGroup_ok (hd : d.data = some m) (hnodes : d.dataNodes ≠ [])
    (h : createShardGroup E database policy timestamp d = .ok () d') :
    ∃ rpi, m.retentionPolicy E database policy = .ok (some rpi) ∧
      (((E.shardGroupByTimestamp rpi timestamp).isSome ∧ d' = d) ∨
        (E.shardGroupByTimestamp rpi timestamp = none ∧ ∃ replicaN shardN,
          d' = { d with data := some (m.addShardGroup E database policy
            (newShardGroup d m rpi timestamp replicaN shardN)
            (generatedShards shardN m.maxShardID).2) })) := by
  rw [createShardGroup, if_neg (fun h0 => hnodes (List.length_eq_zero_iff.mp h0)), hd] at h
  dsimp only at h
  rcases hpol : m.retentionPolicy E database policy with e | _ | rpi
  · rw [hpol] at h
    cases h
  · rw [hpol] at h
    cases h
  · rw [hpol] at h
    dsimp only at h
    refine ⟨rpi, rfl, ?_⟩
    rcases hfound : E.shardGroupByTimestamp rpi timestamp with _ | sg
    · rw [hfound, Option.isSome_none, if_neg Bool.false_ne_true] at h
      split_ifs at h
      cases h
      exact .inr ⟨rfl, _, _, rfl⟩
    · rw [hfound, Option.isSome_some, if_pos rfl] at h
      cases h
      exact .inl ⟨rfl, rfl⟩

/-- A call that returns an error has changed nothing. -/
theorem createShardGroup_err {e : MetaErr}
    (h : createShardGroup E database policy timestamp d = .error (.err e) d') : d' = d := by
  rw [createShardGroup] at h
  split_ifs at h
  rcases hd : d.data with _ | m
  · rw [hd] at h
    cases h
  · rw [hd] at h
    dsimp only at h
    rcases hpol : m.retentionPolicy E database policy with e | _ | rpi
    · rw [hpol] at h
      cases h
      rfl
    · rw [hpol] at h
      cases h
      rfl
    · rw [hpol] at h
      dsimp only at h
      split_ifs at h
      cases h

/-- What can have become of the data: nothing, groups were marked, or there is one more. -/
inductive Changed (E : EmbeddedGroups) (d : Data X) (m : MetaData X) : MetaData X → Prop
  | same : Changed E d m m
  | marked {which : UInt64 → Bool} {now : Time} (hnow : now ≠ 0) : Changed E d m (m.mark which now)
  | created {database policy : String} {timestamp : Time} {rpi : RetentionPolicyInfo}
      (replicaN : Int) (shardN : Nat)
      (hpol : m.retentionPolicy E database policy = .ok (some rpi))
      (hnone : E.shardGroupByTimestamp rpi timestamp = none) :
      Changed E d m (m.addShardGroup E database policy
        (newShardGroup d m rpi timestamp replicaN shardN) (generatedShards shardN m.maxShardID).2)

/-- **One call** changes the embedded data only. -/
theorem GroupOp.step_changed (hd : d.data = some m) (hnodes : d.dataNodes ≠ []) {op : GroupOp}
    (h : op.step E d = some d') : ∃ m', d' = { d with data := some m' } ∧ Changed E d m m' := by
  have hsame : d = { d with data := some m } := by rw [← hd]
  cases op with
  | create database policy timestamp =>
    rw [GroupOp.step] at h
    rcases hcall : createShardGroup E database policy timestamp d with ⟨⟨⟩, d₁⟩ | ⟨e | _, d₁⟩
    · rw [hcall] at h
      cases h
      obtain ⟨rpi, hpol, ⟨-, rfl⟩ | ⟨hnone, replicaN, shardN, rfl⟩⟩ :=
        createShardGroup_ok hd hnodes hcall
      · exact ⟨m, hsame, .same⟩
      · exact ⟨_, rfl, .created replicaN shardN hpol hnone⟩
    · rw [hcall] at h
      cases h
      rw [createShardGroup_err hcall]
      exact ⟨m, hsame, .same⟩
    · rw [hcall] at h
      cases h
  | delete which now =>
    rw [GroupOp.step] at h
    split_ifs at h with hnow
    cases h
    exact ⟨m.mark which now, by rw [hd]; rfl, .marked hnow⟩

/-- No group covers a timestamp that the lookup finds none for. -/
theorem EmbeddedGroups.Lawful.not_covered (hE : E.Lawful)
    (hnone : E.shardGroupByTimestamp rpi timestamp = none) :
    ¬ ∃ sg ∈ rpi.shardGroups, sg.Covers timestamp := by
  intro hcovered
  have hsome := hE.finds hcovered
  rw [hnone] at hsome
  cases hsome

/-- **Every step keeps the policies in order.** -/
theorem Changed.policies (hE : E.Lawful) {m' : MetaData X} (h : Changed E d m m')
    (hok : ∀ rpi ∈ m.policies, PolicyOK rpi) : ∀ rpi ∈ m'.policies, PolicyOK rpi := by
  cases h with
  | same => exact hok
  | marked hnow =>
    intro rpi hrpi
    rw [MetaData.mark_policies] at hrpi
    obtain ⟨rpi', hrpi', rfl⟩ := List.mem_map.mp hrpi
    exact (hok rpi' hrpi').mark hnow
  | @created database policy timestamp rpi replicaN shardN hpol hnone =>
    obtain ⟨l₁, l₂, hl, hl', -⟩ := addShardGroup_split hE hpol
      (newShardGroup d m rpi timestamp replicaN shardN) (generatedShards shardN m.maxShardID).2
    rw [hl', List.forall_mem_append, List.forall_mem_cons]
    rw [hl, List.forall_mem_append, List.forall_mem_cons] at hok
    exact ⟨hok.1, hok.2.1.add hE (hE.not_covered hnone) rfl rfl, hok.2.2⟩

/-- Groups and shards are only added, and keep their identifiers. -/
theorem Changed.grows (hE : E.Lawful) {m' : MetaData X} (h : Changed E d m m') :
    (m.groups.map ShardGroupInfo.id).Subperm (m'.groups.map ShardGroupInfo.id) ∧
      (m.shards.map ShardInfo.id).Subperm (m'.shards.map ShardInfo.id) := by
  cases h with
  | same => exact ⟨List.Subperm.refl _, List.Subperm.refl _⟩
  | marked hnow =>
    rw [MetaData.mark_groupIDs, MetaData.mark_shards]
    exact ⟨List.Subperm.refl _, List.Subperm.refl _⟩
  | @created database policy timestamp rpi replicaN shardN hpol hnone =>
    constructor
    · refine List.Subperm.trans ?_
        ((addShardGroup_groups hE hpol _ _).map ShardGroupInfo.id).symm.subperm
      exact (List.sublist_cons_self _ _).subperm
    · refine List.Subperm.trans ?_ ((addShardGroup_shards hE hpol _ _).map ShardInfo.id).symm.subperm
      rw [List.map_append]
      exact (List.sublist_append_right _ _).subperm

/-- The counters go up by what was added. -/
structure Counts (m m' : MetaData X) : Prop where
  groups : m'.maxShardGroupID.toNat + m.groups.length = m.maxShardGroupID.toNat + m'.groups.length
  shards : m'.maxShardID.toNat + m.shards.length = m.maxShardID.toNat + m'.shards.length

/-- There are identifiers for what was added: a counter of 64 bits does not run out. -/
structure Room (m m' : MetaData X) : Prop where
  groups : m.maxShardGroupID.toNat + m'.groups.length < 2 ^ 64 + m.groups.length
  shards : m.maxShardID.toNat + m'.shards.length < 2 ^ 64 + m.shards.length

/-- The owners do not matter for the identifiers of the shards. -/
theorem newShardGroup_shardIDs (d : Data X) (m : MetaData X) (rpi : RetentionPolicyInfo)
    (timestamp : Time) (replicaN : Int) (shardN : Nat) :
    (newShardGroup d m rpi timestamp replicaN shardN).shards.map ShardInfo.id =
      (generatedShards shardN m.maxShardID).1.map ShardInfo.id :=
  assignOwners_ids _ _ _ _

/-- **Every step keeps the identifiers different**, as long as there are any left. -/
theorem Changed.ids (hE : E.Lawful) {m' : MetaData X} (h : Changed E d m m') (hok : IDsOK m)
    (hroom : Room m m') : IDsOK m' ∧ Counts m m' := by
  cases h with
  | same => exact ⟨hok, rfl, rfl⟩
  | marked hnow =>
    refine ⟨hok.mark, ?_, ?_⟩
    · rw [MetaData.mark_groups, List.length_map]
      rfl
    · rw [MetaData.mark_shards]
      rfl
  | @created database policy timestamp rpi replicaN shardN hpol hnone =>
    have hids := newShardGroup_shardIDs d m rpi timestamp replicaN shardN
    have hlen := congrArg List.length hids
    rw [List.length_map, List.length_map, generatedShards_length] at hlen
    have hgroups := (addShardGroup_groups hE hpol (newShardGroup d m rpi timestamp replicaN shardN)
      (generatedShards shardN m.maxShardID).2).length_eq
    have hshards := (addShardGroup_shards hE hpol (newShardGroup d m rpi timestamp replicaN shardN)
      (generatedShards shardN m.maxShardID).2).length_eq
    rw [List.length_cons] at hgroups
    rw [List.length_append, hlen] at hshards
    obtain ⟨hroomGroups, hroomShards⟩ := hroom
    rw [hgroups] at hroomGroups
    rw [hshards] at hroomShards
    have hnext : (m.maxShardGroupID + 1).toNat = m.maxShardGroupID.toNat + 1 := by
      rw [UInt64.toNat_add]
      exact Nat.mod_eq_of_lt (by show _ + 1 < 2 ^ 64; omega)
    have hleft : m.maxShardID.toNat + shardN < 2 ^ 64 := by omega
    obtain ⟨hlast, hnodup, hnew⟩ := generatedShards_ids shardN hleft
    refine ⟨hok.add hE hpol rfl (UInt64.lt_iff_toNat_lt.mpr (by omega))
      (UInt64.le_iff_toNat_le.mpr (by omega)) (hids ▸ hnodup) fun s hs => ?_, ?_, ?_⟩
    · obtain ⟨s', hs', heq⟩ := List.mem_map.mp (hids ▸ List.mem_map_of_mem hs)
      rw [← heq]
      exact hnew s' hs'
    · rw [hgroups]
      show (m.maxShardGroupID + 1).toNat + _ = _
      omega
    · rw [hshards]
      show (generatedShards shardN m.maxShardID).2.toNat + _ = _
      omega

/-- **What a run does to the data.** -/
structure Ran (d d' : Data X) (m m' : MetaData X) : Prop where
  data : d'.data = some m'
  nodes : d'.dataNodes = d.dataNodes
  policies : (∀ rpi ∈ m.policies, PolicyOK rpi) → ∀ rpi ∈ m'.policies, PolicyOK rpi
  groupIDs : (m.groups.map ShardGroupInfo.id).Subperm (m'.groups.map ShardGroupInfo.id)
  shardIDs : (m.shards.map ShardInfo.id).Subperm (m'.shards.map ShardInfo.id)
  ids : IDsOK m → Room m m' → IDsOK m' ∧ Counts m m'

/-- What runs leave, one after the other. -/
theorem Ran.trans {d₁ : Data X} {m₁ m' : MetaData X} (h₁ : Ran d d₁ m m₁) (h₂ : Ran d₁ d' m₁ m') :
    Ran d d' m m' := by
  refine ⟨h₂.data, h₂.nodes.trans h₁.nodes, fun hok => h₂.policies (h₁.policies hok),
    h₁.groupIDs.trans h₂.groupIDs, h₁.shardIDs.trans h₂.shardIDs, fun hok hroom => ?_⟩
  -- what is there in between is not more than at the end, and is counted
  have hgroups := h₂.groupIDs.length_le
  have hshards := h₂.shardIDs.length_le
  rw [List.length_map, List.length_map] at hgroups hshards
  obtain ⟨hroomGroups, hroomShards⟩ := hroom
  obtain ⟨hok₁, hcount₁⟩ := h₁.ids hok ⟨by omega, by omega⟩
  obtain ⟨hcountGroups, hcountShards⟩ := hcount₁
  obtain ⟨hok₂, hcountGroups', hcountShards'⟩ := h₂.ids hok₁ ⟨by omega, by omega⟩
  exact ⟨hok₂, by omega, by omega⟩

/-- One call, on metadata with data nodes. -/
theorem GroupOp.step_ran (hE : E.Lawful) (hd : d.data = some m) (hnodes : d.dataNodes ≠ [])
    {op : GroupOp} (h : op.step E d = some d') : ∃ m', Ran d d' m m' := by
  obtain ⟨m', rfl, hchanged⟩ := GroupOp.step_changed hd hnodes h
  exact ⟨m', rfl, rfl, hchanged.policies hE, (hchanged.grows hE).1, (hchanged.grows hE).2,
    hchanged.ids hE⟩

/-- **Every run of calls**, by induction. -/
theorem GroupOp.run_ran (hE : E.Lawful) (hd : d.data = some m) (hnodes : d.dataNodes ≠ [])
    {ops : List GroupOp} (h : ops.foldlM (GroupOp.step E) d = some d') : ∃ m', Ran d d' m m' := by
  induction ops generalizing d m with
  | nil =>
    cases h
    exact ⟨m, hd, rfl, id, List.Subperm.refl _, List.Subperm.refl _, fun hok _ => ⟨hok, rfl, rfl⟩⟩
  | cons op ops ih =>
    rw [List.foldlM_cons] at h
    obtain ⟨d₁, hstep, hrest⟩ := Option.bind_eq_some_iff.mp h
    obtain ⟨m₁, h₁⟩ := GroupOp.step_ran hE hd hnodes hstep
    obtain ⟨m', h₂⟩ := ih h₁.data (by rw [h₁.nodes]; exact hnodes) hrest
    exact ⟨m', h₁.trans h₂⟩

/-- The timestamp is in one group of the policy, and another call for it changes nothing. -/
def Contained (E : EmbeddedGroups) (database policy : String) (timestamp : Time) (d : Data X) : Prop :=
  ∃ m rpi, d.data = some m ∧ m.retentionPolicy E database policy = .ok (some rpi) ∧
    rpi.shardGroups.countP (fun sg => sg.Covers timestamp) = 1 ∧
    createShardGroup E database policy timestamp d = .ok () d

/-- A call finds the group. -/
theorem createShardGroup_found (hd : d.data = some m)
    (hpol : m.retentionPolicy E database policy = .ok (some rpi))
    (hsome : (E.shardGroupByTimestamp rpi timestamp).isSome) :
    createShardGroup E database policy timestamp d = .ok () d := by
  rw [createShardGroup, hd]
  dsimp only
  rw [hpol]
  dsimp only
  rw [if_pos hsome]
  exact ite_self _

/-- **A call that returns nil leaves the timestamp in exactly one group.** -/
theorem createShardGroup_contained (hE : E.Lawful) (hd : d.data = some m) (hnodes : d.dataNodes ≠ [])
    (hok : ∀ rpi ∈ m.policies, PolicyOK rpi)
    (h : createShardGroup E database policy timestamp d = .ok () d') :
    Contained E database policy timestamp d' := by
  obtain ⟨rpi, hpol, ⟨hsome, rfl⟩ | ⟨hnone, replicaN, shardN, rfl⟩⟩ := createShardGroup_ok hd hnodes h
  · obtain ⟨sg, hsg⟩ := Option.isSome_iff_exists.mp hsome
    obtain ⟨hmem, hcovers⟩ := hE.found hsg
    have hintervals := (hok rpi (mem_policies_of_retentionPolicy hpol)).intervals
    exact ⟨m, rpi, hd, hpol, hintervals.countP_eq_one hmem hcovers,
      createShardGroup_found hd hpol hsome⟩
  · have hrpi := hok rpi (mem_policies_of_retentionPolicy hpol)
    have hpos := hrpi.duration_pos
    obtain ⟨-, -, -, -, hpol'⟩ := addShardGroup_split hE hpol
      (newShardGroup d m rpi timestamp replicaN shardN) (generatedShards shardN m.maxShardID).2
    -- the group that was made is there, and covers the timestamp
    have hmem : newShardGroup d m rpi timestamp replicaN shardN ∈
        E.sort (rpi.shardGroups ++ [newShardGroup d m rpi timestamp replicaN shardN]) :=
      (hE.perm _).mem_iff.mpr (List.mem_append_right _ List.mem_cons_self)
    have hcovers : (newShardGroup d m rpi timestamp replicaN shardN).Covers timestamp :=
      ⟨rfl, truncate_le hpos, lt_truncate_add hpos⟩
    have hstart : (newShardGroup d m rpi timestamp replicaN shardN).startTime
        = truncate timestamp rpi.shardGroupDuration := rfl
    have hintervals := (hrpi.add hE (hE.not_covered hnone) hstart rfl).intervals
    exact ⟨_, _, rfl, hpol', hintervals.countP_eq_one hmem hcovers,
      createShardGroup_found rfl hpol' (hE.finds ⟨_, hmem, hcovers⟩)⟩

/-- **Shard groups over a run.**  After any calls and deletions the groups of every policy are
    disjoint intervals of its duration, sorted by start; a further call that returns nil leaves its
    timestamp in exactly one of them, and when it is repeated changes nothing; the identifiers of
    groups and of shards that the run has issued at any moment are all there, different, and at most
    the counters. -/
theorem shard_groups_run (hE : E.Lawful) (hd : d.data = some m) (hnodes : d.dataNodes ≠ [])
    (hpolicies : ∀ rpi ∈ m.policies, PolicyOK rpi) (hids : IDsOK m) {ops : List GroupOp}
    (hrun : ops.foldlM (GroupOp.step E) d = some d') :
    ∃ m', d'.data = some m' ∧ (∀ rpi ∈ m'.policies, Intervals rpi) ∧
      (∀ database policy timestamp d'', createShardGroup E database policy timestamp d' = .ok () d'' →
        Contained E database policy timestamp d'') ∧
      (Room m m' → IDsOK m') ∧
      ∀ k d₁ m₁, (ops.take k).foldlM (GroupOp.step E) d = some d₁ → d₁.data = some m₁ →
        m₁.groups.map ShardGroupInfo.id ⊆ m'.groups.map ShardGroupInfo.id ∧
          m₁.shards.map ShardInfo.id ⊆ m'.shards.map ShardInfo.id := by
  obtain ⟨m', h⟩ := GroupOp.run_ran hE hd hnodes hrun
  have hpolicies' := h.policies hpolicies
  have hnodes' : d'.dataNodes ≠ [] := by
    rw [h.nodes]
    exact hnodes
  refine ⟨m', h.data, fun rpi hrpi => (hpolicies' rpi hrpi).intervals,
    fun database policy timestamp d'' => createShardGroup_contained hE h.data hnodes' hpolicies',
    fun hroom => (h.ids hids hroom).1, fun k d₁ m₁ hfirst hd₁ => ?_⟩
  -- the rest of the run only adds
  obtain ⟨m₂, hm₂⟩ := GroupOp.run_ran hE hd hnodes hfirst
  rw [← List.take_append_drop k ops, List.foldlM_append, hfirst] at hrun
  obtain ⟨m₃, hm₃⟩ := GroupOp.run_ran hE hd₁ (by rw [hm₂.nodes]; exact hnodes) hrun
  have heq : m₃ = m' := Option.some.inj (hm₃.data.symm.trans h.data)
  rw [← heq]
  exact ⟨hm₃.groupIDs.subset, hm₃.shardIDs.subset⟩

end Data

/-- A package as documented: the first policy of the name in the first database of the name, the first
    group that covers the timestamp, and insertion sort. -/
def findAndSort : EmbeddedGroups where
  retentionPolicy dbs database policy :=
    match (dbs.map DatabaseInfo.names).zipIdx.find? fun db => db.1.1 = database with
    | none => .error (.embedded ("database not found: " ++ database))
    | some (names, i) => .ok ((names.2.findIdx? (· = policy)).map fun j => (i, j))
  shardGroupByTimestamp rpi timestamp := rpi.shardGroups.find? fun sg => sg.Covers timestamp
  sort := List.insertionSort fun a b => a.startTime ≤ b.startTime

/-- It finds policies by their names and sorts groups by their times. -/
theorem findAndSort_lawful : findAndSort.Lawful where
  byNames h := by
    unfold findAndSort
    dsimp only
    rw [h]
  found := by
    intro rpi timestamp sg h
    have hcovers := List.find?_some (p := fun sg : ShardGroupInfo => decide (sg.Covers timestamp))
      (l := rpi.shardGroups) h
    exact ⟨List.mem_of_find?_eq_some h, of_decide_eq_true hcovers⟩
  finds := by
    rintro rpi timestamp ⟨sg, hsg, hcovers⟩
    exact List.find?_isSome.mpr ⟨sg, hsg, decide_eq_true hcovers⟩
  perm groups := List.perm_insertionSort _ groups
  sorted groups := by
    have htotal : Std.Total fun a b : ShardGroupInfo => a.startTime ≤ b.startTime :=
      ⟨fun a b => Int.le_total a.startTime b.startTime⟩
    have htrans : IsTrans ShardGroupInfo fun a b => a.startTime ≤ b.startTime :=
      ⟨fun _ _ _ => Int.le_trans⟩
    exact List.pairwise_insertionSort _ groups

/-- A policy whose groups last for ten nanoseconds, and has none yet. -/
def tenNanoseconds : MetaData Unit :=
  { term := 1
    index := 4
    clusterID := 7
    databases := [{
      name := "db"
      retentionPolicies := [{
        name := "rp", replicaN := 1, duration := 0, shardGroupDuration := 10, shardGroups := [] }] }]
    maxShardGroupID := 0
    maxShardID := 0
    rest := () }

/-- The policy, and two data nodes. -/
def twoDataNodes : Data Unit :=
  { data := some tenNanoseconds
    metaNodes := []
    dataNodes := [
      { id := 1, host := "a:8091", tcpHost := "a:8088", pendingShardOwners := [] },
      { id := 2, host := "b:8091", tcpHost := "b:8088", pendingShardOwners := [] }]
    users := []
    roles := []
    maxNodeID := 2 }

/-- A group is deleted, and its interval is covered again. -/
def createDeleteCreate : List GroupOp :=
  [.create "db" "rp" 12, .create "db" "rp" 5, .delete (· = 2) 20, .create "db" "rp" 7]

/-- None of the three calls fails. -/
theorem createDeleteCreate_runs :
    (createDeleteCreate.foldlM (GroupOp.step findAndSort) twoDataNodes).isSome := by
  decide +kernel

theorem shard_groups_run_twoDataNodes :
    ∃ d' m', createDeleteCreate.foldlM (GroupOp.step findAndSort) twoDataNodes = some d' ∧
      d'.data = some m' ∧ ∀ rpi ∈ m'.policies, Intervals rpi := by
  have hpolicies : ∀ rpi ∈ tenNanoseconds.policies, PolicyOK rpi := by
    intro rpi hrpi
    rw [List.mem_singleton.mp hrpi]
    exact ⟨by decide, fun sg hsg => absurd hsg List.not_mem_nil, List.Pairwise.nil, List.Pairwise.nil⟩
  have hids : IDsOK tenNanoseconds :=
    ⟨List.nodup_nil, fun sg hsg => absurd hsg List.not_mem_nil, List.nodup_nil,
      fun s hs => absurd hs List.not_mem_nil⟩
  have hrun := (Option.some_get createDeleteCreate_runs).symm
  obtain ⟨m', hm', hintervals, -⟩ :=
    shard_groups_run findAndSort_lawful rfl (by decide) hpolicies hids hrun
  exact ⟨_, m', hrun, hm', hintervals⟩

end InfluxCluster.Meta
