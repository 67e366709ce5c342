/-
  The limit on the buckets of a query (`cluster/statement_executor.go`, `executeSelectStatement`).

  A query that groups by time has a row for each WINDOW of the interval that meets its time range.
  Before it is run their number is computed, from two truncations, a difference and a division, and
  compared with `MaxSelectBucketsN`.

  The difference is a `time.Duration`, and SATURATES at 2^63 - 1 nanoseconds, 292 years.  The range of
  a query can be twice as long.  So the number that is compared is never more than there are
  intervals in 292 years: exact up to there (`bucketCount_eq`), and too small beyond.  With a limit
  of at least that many the queries that it was made for are not rejected (`full_range_not_rejected`);
  with a smaller one the comparison is right all the same (`bucket_limit_exact_iff`).

  What the call does before and after the check are parameters, with the errors that they may
  return.
-/
import InfluxCluster.Cluster.GroupTimes
import Mathlib.Data.Int.Interval
import Mathlib.Data.Set.Card

namespace InfluxCluster.Cluster

open InfluxCluster.Meta

/-! ## The code -/

/-- `t.Sub(u)`, which saturates. -/
def subTime (t u : Int) : Int := max (-9223372036854775808) (min (t - u) 9223372036854775807)

/-- What is read of the statement after its wildcards have been rewritten. -/
structure SelectStatement where
  isRawQuery : Bool
  groupByInterval : Except String Int

/-- What the steps of the call come to, other than the check. -/
structure SelectSteps where
  /-- `time.Now()`. -/
  now : Time
  /-- `influxql.TimeRange`. -/
  timeRange : Except String (Time × Time)
  iteratorCreator : Except String Unit
  /-- `ExpandSources`, if there is a regular expression among them. -/
  expandSources : Except String Unit
  rewriteWildcards : Except String SelectStatement
  /-- The iterators, and the rows that are emitted. -/
  select : Except String Unit

/-- The errors of the call. -/
inductive SelectErr
  | step (text : String)
  /-- "max select bucket count exceeded: … buckets". -/
  | maxBuckets (buckets : Int)
  deriving DecidableEq

/-- An error of a step is returned. -/
def stepErr {α : Type} : Except String α → Except SelectErr α
  | .ok a => .ok a
  | .error text => .error (.step text)

/-- `opt.MinTime` and `opt.MaxTime`. -/
def SelectSteps.range (q : SelectSteps) : Except String (Time × Time) :=
  match q.timeRange with
  | .error text => .error text
  | .ok (minTime, maxTime) =>
    .ok (if minTime = 0 then unixNano 0 else minTime, if maxTime = 0 then q.now else maxTime)

/-- `buckets`. -/
def bucketCount (minTime maxTime interval : Int) : Int :=
  (subTime (truncate maxTime interval + interval) (truncate minTime interval)).tdiv interval

/-- The check. -/
def checkBuckets (maxSelectBucketsN : Int) (minTime maxTime : Time) (stmt : SelectStatement) :
    Except SelectErr Unit :=
  if 0 < maxSelectBucketsN ∧ ¬stmt.isRawQuery then do
    let interval ← stepErr stmt.groupByInterval
    if 0 < interval then
      if maxSelectBucketsN < bucketCount minTime maxTime interval then
        throw (.maxBuckets (bucketCount minTime maxTime interval))
  else pure ()

/-- `executeSelectStatement`. -/
def executeSelectStatement (maxSelectBucketsN : Int) (q : SelectSteps) : Except SelectErr Unit := do
  let (minTime, maxTime) ← stepErr q.range
  stepErr q.iteratorCreator
  stepErr q.expandSources
  let stmt ← stepErr q.rewriteWildcards
  checkBuckets maxSelectBucketsN minTime maxTime stmt
  stepErr q.select

/-! ## The windows -/

/-- **The windows that meet the range**: window `k` is from `k` intervals to the next, counted from
    Go's zero time. -/
def windows (minTime maxTime interval : Int) : Set Int :=
  {k | ∃ t, minTime ≤ t ∧ t ≤ maxTime ∧ k * interval ≤ t ∧ t < (k + 1) * interval}

section Windows

variable {minTime maxTime interval : Int}

/-- They are those from the window of the first time to that of the last. -/
theorem mem_windows (hi : 0 < interval) (hle : minTime ≤ maxTime) (k : Int) :
    k ∈ windows minTime maxTime interval ↔ minTime / interval ≤ k ∧ k ≤ maxTime / interval := by
  constructor
  · rintro ⟨t, hmin, hmax, hstart, hend⟩
    have hlow := (Int.le_ediv_iff_mul_le hi).mpr hstart
    have hhigh := (Int.ediv_lt_iff_lt_mul hi).mpr hend
    have hk : t / interval = k := by omega
    rw [← hk]
    exact ⟨Int.ediv_le_ediv hi hmin, Int.ediv_le_ediv hi hmax⟩
  · rintro ⟨hlow, hhigh⟩
    -- the first time of the window, or that of the range if it is later
    refine ⟨max minTime (k * interval), le_max_left _ _, max_le hle ?_, le_max_right _ _,
      max_lt ?_ ?_⟩
    · exact (Int.le_ediv_iff_mul_le hi).mp hhigh
    · exact (Int.ediv_lt_iff_lt_mul hi).mp (by omega)
    · rw [Int.add_mul]
      omega

/-- How many there are. -/
theorem windows_ncard (hi : 0 < interval) (hle : minTime ≤ maxTime) :
    ((windows minTime maxTime interval).ncard : Int)
      = maxTime / interval - minTime / interval + 1 := by
  have hmono := Int.ediv_le_ediv hi hle
  have hset : windows minTime maxTime interval
      = ↑(Finset.Icc (minTime / interval) (maxTime / interval)) := by
    ext k
    rw [mem_windows hi hle, Finset.mem_coe, Finset.mem_Icc]
  rw [hset, Set.ncard_coe_finset, Int.card_Icc]
  omega

/-! ## What is compared -/

theorem truncate_eq_mul (hi : 0 < interval) (t : Int) :
    truncate t interval = t / interval * interval := by
  rw [truncate_eq hi]
  have h := Int.ediv_mul_add_emod t interval
  omega

/-- From the start of the first window to the end of the last. -/
theorem aligned_span (hi : 0 < interval) :
    truncate maxTime interval + interval - truncate minTime interval
      = (maxTime / interval - minTime / interval + 1) * interval := by
  rw [truncate_eq_mul hi, truncate_eq_mul hi, Int.add_mul, Int.sub_mul]
  omega

/-- **The number that is compared** is that of the windows, but never more than there are intervals
    in the longest duration. -/
theorem bucketCount_eq (hi : 0 < interval) (hle : minTime ≤ maxTime) :
    bucketCount minTime maxTime interval
      = min ((windows minTime maxTime interval).ncard : Int) (9223372036854775807 / interval) := by
  have hmono := Int.ediv_le_ediv hi hle
  rw [bucketCount, subTime, aligned_span hi, windows_ncard hi hle]
  set n := maxTime / interval - minTime / interval + 1
  have hspan : 0 < n * interval := Int.mul_pos (by omega) hi
  rw [max_eq_right (by omega), Int.tdiv_eq_ediv_of_nonneg (by omega)]
  rcases le_total (n * interval) 9223372036854775807 with hfits | hlong
  · rw [min_eq_left hfits, Int.mul_ediv_cancel _ (by omega), min_eq_left]
    exact (Int.le_ediv_iff_mul_le hi).mpr hfits
  · rw [min_eq_right hlong, min_eq_right]
    have h := Int.ediv_le_ediv hi hlong
    rwa [Int.mul_ediv_cancel _ (by omega)] at h

end Windows

/-! ## The check -/

/-- The call rejects the statement with the error of the bucket count. -/
def Rejects (maxSelectBucketsN : Int) (q : SelectSteps) : Prop :=
  ∃ buckets, executeSelectStatement maxSelectBucketsN q = .error (.maxBuckets buckets)

/-- The steps before the check succeed, and the statement is not raw and groups by the interval. -/
structure Reaches (q : SelectSteps) (minTime maxTime interval : Int) : Prop where
  range : q.range = .ok (minTime, maxTime)
  iteratorCreator : q.iteratorCreator = .ok ()
  expandSources : q.expandSources = .ok ()
  rewriteWildcards : q.rewriteWildcards = .ok ⟨false, .ok interval⟩

theorem rejects_iff {n minTime maxTime interval : Int} {q : SelectSteps}
    (h : Reaches q minTime maxTime interval) (hn : 0 < n) (hi : 0 < interval) :
    Rejects n q ↔ n < bucketCount minTime maxTime interval := by
  have hcall : executeSelectStatement n q
      = (checkBuckets n minTime maxTime ⟨false, .ok interval⟩).bind fun _ => stepErr q.select := by
    rw [executeSelectStatement, h.range, h.iteratorCreator, h.expandSources, h.rewriteWildcards]
    rfl
  have hcheck : checkBuckets n minTime maxTime ⟨false, .ok interval⟩
      = if n < bucketCount minTime maxTime interval then
          .error (.maxBuckets (bucketCount minTime maxTime interval))
        else .ok () := by
    rw [checkBuckets, if_pos ⟨hn, Bool.false_ne_true⟩]
    show (if 0 < interval then _ else _) = _
    rw [if_pos hi]
    rfl
  rw [Rejects, hcall, hcheck]
  by_cases hlt : n < bucketCount minTime maxTime interval
  · rw [if_pos hlt]
    exact iff_of_true ⟨_, rfl⟩ hlt
  · rw [if_neg hlt]
    refine iff_of_false ?_ hlt
    rintro ⟨buckets, heq⟩
    cases hselect : q.select with
    | ok _ =>
      rw [hselect] at heq
      cases heq
    | error text =>
      rw [hselect] at heq
      cases heq

/-- **When the bucket limit is exact.**  Of a statement that is not raw and groups by a positive
    interval, with a positive limit, the call returns the error of the bucket count exactly when more
    windows meet the range than the limit allows, if and only if the limit is below the number of
    intervals in the longest duration, or the windows are not more than the limit. -/
theorem bucket_limit_exact_iff (n minTime maxTime interval : Int) (q : SelectSteps)
    (h : Reaches q minTime maxTime interval) (hn : 0 < n) (hi : 0 < interval)
    (hle : minTime ≤ maxTime) :
    (Rejects n q ↔ n < (windows minTime maxTime interval).ncard) ↔
      n < 9223372036854775807 / interval ∨ maxTime / interval - minTime / interval < n := by
  rw [rejects_iff h hn hi, bucketCount_eq hi hle, windows_ncard hi hle, lt_min_iff]
  omega

/-- A statement with the range and the interval, that has no rows. -/
def plainSteps (minTime maxTime interval : Int) : SelectSteps :=
  { now := 0, timeRange := .ok (minTime, maxTime), iteratorCreator := .ok ()
    expandSources := .ok (), rewriteWildcards := .ok ⟨false, .ok interval⟩, select := .ok () }

/-- Half a minute from the fifth second on, in windows of ten seconds, of which three are allowed. -/
theorem bucket_limit_exact_seconds :
    Rejects 3 (plainSteps 5000000000 34999999999 10000000000) ↔
      3 < ((windows 5000000000 34999999999 10000000000).ncard : Int) :=
  (bucket_limit_exact_iff 3 5000000000 34999999999 10000000000 (plainSteps _ _ _)
    ⟨rfl, rfl, rfl, rfl⟩ (by decide) (by decide) (by decide)).mpr (.inl (by decide))

/-- **The whole range by the hour** has more than five million windows, but of a limit of three
    million it is not rejected. -/
theorem full_range_not_rejected :
    InRange minNanoTime ∧ InRange maxNanoTime ∧
      3000000 < ((windows minNanoTime maxNanoTime 3600000000000).ncard : Int) ∧
      executeSelectStatement 3000000 (plainSteps minNanoTime maxNanoTime 3600000000000)
        = .ok () := by
  refine ⟨by decide, by decide, ?_, ?_⟩
  · rw [windows_ncard (by decide) (by decide)]
    decide
  · rfl

end InfluxCluster.Cluster
