/-
  Which times do shard groups have?  (`cluster/points_writer.go`, `MapShards`; `meta/client.go`,
  `CreateShardGroup`; `meta/store_fsm.go`; `meta/data.go`, `CreateShardGroup`.)

  The time of a point is an int64 of nanoseconds.  `MapShards` truncates it, DOWN, to the duration
  of the policy's groups; the command carries the truncated time as an int64 again; and the group
  that the state machine makes for it starts there and lasts UP to the next multiple.  Both may be
  beyond an end of the range:

  * below the first multiple of the duration in the range, the truncated time is not in it.
    `UnixNano` wraps, and the group is made five centuries later;
  * from the last multiple on, the group ends outside of the range.

  In between all times are representable, and only there (`group_times_iff`).
-/
import InfluxCluster.Cluster.MapShards
import InfluxCluster.Meta.GroupCreation

namespace InfluxCluster.Cluster

open InfluxCluster.Lib InfluxCluster.Meta

/-- The first time that is an int64 of nanoseconds. -/
def minNanoTime : Int := unixNano (-9223372036854775808)

/-- The last one. -/
def maxNanoTime : Int := unixNano 9223372036854775807

theorem inRange_iff {t : Int} : InRange t ↔ minNanoTime ≤ t ∧ t ≤ maxNanoTime := by
  unfold InRange minNanoTime maxNanoTime unixNano
  omega

/-- The time of the command, as the state machine has it. -/
def receivedTime (t : Int) : Int := unixNano (toUnixNano t)

/-- **A time arrives unchanged exactly if it is in the range.** -/
theorem receivedTime_eq_iff {t : Int} : receivedTime t = t ↔ InRange t := by
  constructor
  · intro h
    have hlow := Int.le_bmod (x := t - 62135596800 * 10 ^ 9) (m := 2 ^ 64) (by decide)
    have hhigh := Int.bmod_lt (x := t - 62135596800 * 10 ^ 9) (m := 2 ^ 64) (by decide)
    unfold receivedTime unixNano toUnixNano at h
    unfold InRange
    omega
  · exact unixNano_toUnixNano

section Times

variable {X P : Type} [Point P]

/-- The group that the state machine makes for the point. -/
def groupFor (data : Data X) (m : MetaData X) (rpi : RetentionPolicyInfo) (replicaN : Int)
    (shardN : Nat) (p : P) : ShardGroupInfo :=
  newShardGroup data m rpi (receivedTime (rangeOf rpi.shardGroupDuration p).instant) replicaN shardN

/-- **The times are representable**: the truncated time arrives unchanged, and the start and the end
    of the group are in the range. -/
structure TimesRepresentable (data : Data X) (m : MetaData X) (rpi : RetentionPolicyInfo)
    (replicaN : Int) (shardN : Nat) (p : P) : Prop where
  recovered : receivedTime (rangeOf rpi.shardGroupDuration p).instant
    = (rangeOf rpi.shardGroupDuration p).instant
  start_time : InRange (groupFor data m rpi replicaN shardN p).startTime
  end_time : InRange (groupFor data m rpi replicaN shardN p).endTime

variable {data : Data X} {m : MetaData X} {rpi : RetentionPolicyInfo} {replicaN : Int}
  {shardN : Nat} {p : P}

/-- The group for a time that has arrived unchanged starts there. -/
theorem groupFor_startTime (h : InRange (rangeOf rpi.shardGroupDuration p).instant) :
    (groupFor data m rpi replicaN shardN p).startTime
      = truncate (Point.time p).instant rpi.shardGroupDuration := by
  show truncate (receivedTime _) _ = _
  rw [receivedTime_eq_iff.mpr h]
  exact truncate_truncate _ _

theorem groupFor_endTime : (groupFor data m rpi replicaN shardN p).endTime
    = (groupFor data m rpi replicaN shardN p).startTime + rpi.shardGroupDuration :=
  rfl

end Times

/-! ## The multiples of the duration in the range -/

section Grid

variable {d t a b : Int}

/-- What is truncated is not below `a` exactly if it was not below the next multiple. -/
theorem le_truncate_iff (hd : 0 < d) : a ≤ truncate t d ↔ truncate (a + d - 1) d ≤ t := by
  have hnext := lt_truncate_add (t := a + d - 1) hd
  have hle := truncate_le (t := t) hd
  constructor
  · intro h
    by_contra hlt
    have hbelow := truncate_le (t := a + d - 1) hd
    have hstep := add_le_of_lt (dvd_truncate (t := t) hd) (dvd_truncate (t := a + d - 1) hd)
      (by omega)
    omega
  · intro h
    by_contra hlt
    have hafter := lt_truncate_add (t := t) hd
    have hstep := add_le_of_lt (dvd_truncate (t := t) hd) (dvd_truncate (t := a + d - 1) hd)
      (by omega)
    omega

/-- The next multiple is not beyond `b` exactly if there is one in between. -/
theorem truncate_add_le_iff (hd : 0 < d) : truncate t d + d ≤ b ↔ t < truncate b d := by
  have hle := truncate_le (t := t) hd
  have hlt := lt_truncate_add (t := t) hd
  have hleb := truncate_le (t := b) hd
  have hltb := lt_truncate_add (t := b) hd
  constructor
  · intro h
    by_contra hnot
    have hstep := add_le_of_lt (dvd_truncate (t := b) hd)
      (Int.dvd_add (dvd_truncate (t := t) hd) (Int.dvd_refl d)) (by omega)
    omega
  · intro h
    have hstep := add_le_of_lt (dvd_truncate (t := t) hd) (dvd_truncate (t := b) hd) (by omega)
    omega

end Grid

/-- **When the times of a group are representable.**  For a point whose time is an int64 of
    nanoseconds, and a positive duration, the truncated time arrives unchanged and the group starts
    and ends in the range, if and only if the point is not before the first multiple of the duration
    in the range, and is before the last. -/
theorem group_times_iff {X P : Type} [Point P] (data : Data X) (m : MetaData X)
    (rpi : RetentionPolicyInfo) (replicaN : Int) (shardN : Nat) (p : P)
    (hpos : 0 < rpi.shardGroupDuration) (hp : InRange (Point.time p).instant) :
    TimesRepresentable data m rpi replicaN shardN p ↔
      truncate (minNanoTime + rpi.shardGroupDuration - 1) rpi.shardGroupDuration
          ≤ (Point.time p).instant ∧
        (Point.time p).instant < truncate maxNanoTime rpi.shardGroupDuration := by
  rw [← le_truncate_iff hpos, ← truncate_add_le_iff hpos]
  obtain ⟨hmin, hmax⟩ := inRange_iff.mp hp
  have hle := truncate_le (t := (Point.time p).instant) hpos
  have hlt := lt_truncate_add (t := (Point.time p).instant) hpos
  constructor
  · rintro ⟨hrecovered, -, hend⟩
    have hin := receivedTime_eq_iff.mp hrecovered
    rw [groupFor_endTime, groupFor_startTime hin] at hend
    exact ⟨(inRange_iff.mp hin).1, (inRange_iff.mp hend).2⟩
  · rintro ⟨hlow, hhigh⟩
    have hin : InRange (rangeOf rpi.shardGroupDuration p).instant :=
      inRange_iff.mpr ⟨hlow, hle.trans hmax⟩
    refine ⟨receivedTime_eq_iff.mpr hin, ?_, ?_⟩
    · rw [groupFor_startTime hin]
      exact hin
    · rw [groupFor_endTime, groupFor_startTime hin]
      exact inRange_iff.mpr ⟨hmin.trans hlt.le, hhigh⟩

/-- Groups of an hour. -/
def hourly : RetentionPolicyInfo :=
  { name := "rp", replicaN := 1, duration := 0, shardGroupDuration := 3600000000000
    shardGroups := [] }

/-- Data with one node. -/
def oneNode : Data Unit :=
  { data := none, metaNodes := [], dataNodes := [⟨1, "h", "t", []⟩], users := [], roles := []
    maxNodeID := 1 }

def noDatabases : MetaData Unit :=
  { term := 1, index := 1, clusterID := 1, databases := [], maxShardGroupID := 0, maxShardID := 0
    rest := () }

/-- A point at the Unix epoch. -/
theorem group_times_epoch :
    TimesRepresentable oneNode noDatabases hourly 1 1 (⟨⟨unixNano 0, 0⟩, 0⟩ : Sample) := by
  refine (group_times_iff oneNode noDatabases hourly 1 1 _ ?_ ?_).mpr ?_
  · decide
  · decide
  · decide

/-- **The ends of the range.**  The truncated time of the first point arrives as one that is 2^64
    nanoseconds later, more than five centuries; the group of the last point ends outside of the
    range. -/
theorem group_times_at_the_ends :
    InRange minNanoTime ∧ InRange maxNanoTime ∧
      receivedTime (rangeOf hourly.shardGroupDuration (⟨⟨minNanoTime, 0⟩, 0⟩ : Sample)).instant
        = truncate minNanoTime hourly.shardGroupDuration + 18446744073709551616 ∧
      ¬InRange (groupFor oneNode noDatabases hourly 1 1 (⟨⟨maxNanoTime, 0⟩, 0⟩ : Sample)).endTime := by
  decide

end InfluxCluster.Cluster
