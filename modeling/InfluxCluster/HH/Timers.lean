/-
  The two timers of the hinted-handoff processor (`hh/node_processor.go`, `run`).

  `run` waits in a `select` for the next retry and for the next purge of old hints.  Both timers are
  made ANEW each time: `time.After` stands in the cases of the `select`.  So whichever of the two is
  the longer one starts again when the other has fired, and a goroutine that is woken in time never
  sees it fire.

  *  With `RetryInterval` and `RetryMaxInterval` below `PurgeInterval`, as the defaults have it, old
     hints are NEVER PURGED.
  *  A purge leaves the retry interval as it is.  So once the back-off has taken that above
     `PurgeInterval`, there are only purges, and NOTHING IS SENT any more.

  Both at once are `timers_starve`.  Times are those of one clock, in nanoseconds; the rounds and
  the intervals are those of `Backoff`.
-/
import InfluxCluster.HH.Backoff

namespace InfluxCluster.HH

open InfluxCluster.Lib

/-- `time.After` fires at once if the duration is not positive. -/
def Duration.wait (d : Duration) : Int := max d.toInt 0

/-- `run` at its `select`, and when it got there. -/
structure TimedRunner where
  runner : Runner
  since : Int

/-- A turn of the loop: the case that is taken, when, and when the loop is back at its `select`. -/
structure Turn (Point : Type) where
  round : Round Point
  woken : Int
  back : Int

section Timers

variable {Point : Type} (c : PointCodec Point) (cfg : RetryConfig) (purgeInterval : Duration)

/-- The timer of a case. -/
def Round.timer (r : Runner) : Round Point → Duration
  | .purge _ _ _ => purgeInterval
  | .retry _ => r.currInterval

/-- A turn; `none` if the timer of its case has not fired. -/
def Turn.step (t : TimedRunner) (turn : Turn Point) : Option TimedRunner :=
  if t.since + (turn.round.timer purgeInterval t.runner).wait ≤ turn.woken
      ∧ turn.woken ≤ turn.back then
    (turn.round.step c cfg t.runner).map fun r => { runner := r, since := turn.back }
  else none

/-- **The goroutine is woken in time**: of two different timers the later one has not fired. -/
def Turn.Prompt (t : TimedRunner) (turn : Turn Point) : Prop :=
  t.runner.currInterval.wait ≠ purgeInterval.wait →
    turn.woken < t.since + max t.runner.currInterval.wait purgeInterval.wait

/-- `run` starts at this time. -/
def TimedRunner.start (n : NodeProcessor) (since : Int) : TimedRunner :=
  { runner := Runner.start cfg n, since := since }

/-- The turn is one that sends. -/
def Turn.Retries (turn : Turn Point) : Prop := ∃ attempts, turn.round = .retry attempts

/-- The turn is one that purges. -/
def Turn.Purges (turn : Turn Point) : Prop :=
  ∃ meanwhile fuel when_, turn.round = .purge meanwhile fuel when_

variable {c cfg purgeInterval}

/-- **The case that is taken is that of the shorter timer.** -/
theorem Turn.timer_le {t t' : TimedRunner} {turn : Turn Point}
    (hprompt : turn.Prompt purgeInterval t) (h : turn.step c cfg purgeInterval t = some t') :
    (turn.Retries ∧ t.runner.currInterval.wait ≤ purgeInterval.wait) ∨
      (turn.Purges ∧ purgeInterval.wait ≤ t.runner.currInterval.wait) := by
  obtain ⟨⟨hfired, -⟩, -⟩ := Option.ite_none_right_eq_some.mp h
  rw [Turn.Prompt] at hprompt
  cases hround : turn.round with
  | purge meanwhile fuel when_ =>
    rw [hround] at hfired
    have hfired : t.since + purgeInterval.wait ≤ turn.woken := hfired
    exact .inr ⟨⟨meanwhile, fuel, when_, hround⟩, by omega⟩
  | retry attempts =>
    rw [hround] at hfired
    have hfired : t.since + t.runner.currInterval.wait ≤ turn.woken := hfired
    exact .inl ⟨⟨attempts, hround⟩, by omega⟩

/-- What becomes of the interval. -/
theorem Turn.step_round {t t' : TimedRunner} {turn : Turn Point}
    (h : turn.step c cfg purgeInterval t = some t') :
    turn.round.step c cfg t.runner = some t'.runner := by
  obtain ⟨-, h⟩ := Option.ite_none_right_eq_some.mp h
  obtain ⟨r, hr, rfl⟩ := Option.map_eq_some_iff.mp h
  exact hr

/-- The longer of the two settings. -/
def RetryConfig.longest (cfg : RetryConfig) : Int :=
  max cfg.retryInterval.toInt cfg.retryMaxInterval.toInt

theorem RetryConfig.afterSend_le (d : Duration) (outcome : SendOutcome) :
    (cfg.afterSend d outcome).toInt ≤ cfg.longest := by
  have hbase : cfg.retryInterval.toInt ≤ cfg.longest := Int.le_max_left _ _
  cases outcome with
  | ok sent => exact hbase
  | error err =>
    by_cases heof : err = .queue .eof
    · subst heof
      exact hbase
    · rw [afterSend_failed cfg d heof, toInt_capped]
      exact Int.le_trans (Int.min_le_right _ _) (Int.le_max_right _ _)

theorem RetryConfig.waitsFrom_le {d e : Duration} {outcomes : List SendOutcome}
    (he : e ∈ cfg.waitsFrom d outcomes) : e.toInt ≤ cfg.longest := by
  induction outcomes generalizing d with
  | nil => cases he
  | cons outcome outcomes ih =>
    cases outcome with
    | ok sent => exact ih he
    | error err =>
      rcases List.mem_cons.mp he with rfl | he
      · exact afterSend_le d _
      · exact ih he

/-- **No interval is above both settings**, however it has been doubled. -/
theorem Round.step_le {r r' : Runner} {round : Round Point} (hr : r.currInterval.toInt ≤ cfg.longest)
    (h : round.step c cfg r = some r') : r'.currInterval.toInt ≤ cfg.longest := by
  cases round with
  | purge meanwhile fuel when_ =>
    cases h
    exact hr
  | retry attempts =>
    obtain ⟨outcomes, -, hmem⟩ := sendLoop_outcomes h
    exact RetryConfig.waitsFrom_le hmem

theorem RetryConfig.firstInterval_le : cfg.firstInterval.toInt ≤ cfg.longest := by
  rw [firstInterval, toInt_capped]
  exact Int.le_trans (Int.min_le_right _ _) (Int.le_max_right _ _)

/-- **One of the two timers never fires.**  In a run that is always woken in time: if
    `PurgeInterval` is above both settings of the retries, no turn is a purge; and from the moment
    on when the interval of the retries is above `PurgeInterval`, every turn is one, and nothing is
    sent. -/
theorem timers_starve {n : NodeProcessor} {since : Int} {turns later : List (Turn Point)}
    {t t' : TimedRunner}
    (hrun : turns.foldlM (Turn.step c cfg purgeInterval) (TimedRunner.start cfg n since) = some t)
    (hprompt : Along (Turn.step c cfg purgeInterval) (fun t turn => turn.Prompt purgeInterval t)
      (TimedRunner.start cfg n since) turns)
    (hlater : later.foldlM (Turn.step c cfg purgeInterval) t = some t')
    (hprompt' : Along (Turn.step c cfg purgeInterval) (fun t turn => turn.Prompt purgeInterval t)
      t later) :
    (cfg.retryInterval < purgeInterval → cfg.retryMaxInterval < purgeInterval →
      0 < purgeInterval → ∀ turn ∈ turns, turn.Retries) ∧
    (purgeInterval.wait < t.runner.currInterval.wait → ∀ turn ∈ later, turn.Purges) := by
  constructor
  · intro hbase hmax hpos
    rw [Int64.lt_iff_toInt_lt] at hbase hmax hpos
    have hshort : max cfg.longest 0 < purgeInterval.wait := by
      rw [Duration.wait, RetryConfig.longest]
      have hzero : (0 : Int64).toInt = 0 := rfl
      omega
    refine hprompt.forall_mem
      (J := fun t => t.runner.currInterval.toInt ≤ cfg.longest)
      (fun t turn t' ht hprompt hstep => ?_) RetryConfig.firstInterval_le hrun
    refine ⟨Round.step_le ht (Turn.step_round hstep), ?_⟩
    rcases Turn.timer_le hprompt hstep with ⟨hretries, -⟩ | ⟨-, hle⟩
    · exact hretries
    · have hwait : t.runner.currInterval.wait = max t.runner.currInterval.toInt 0 := rfl
      omega
  · intro hlong
    refine hprompt'.forall_mem
      (J := fun t => purgeInterval.wait < t.runner.currInterval.wait)
      (fun t turn t' ht hprompt hstep => ?_) hlong hlater
    rcases Turn.timer_le hprompt hstep with ⟨-, hle⟩ | ⟨hpurges, -⟩
    · omega
    · refine ⟨?_, hpurges⟩
      -- a purge does not touch the interval
      obtain ⟨meanwhile, fuel, when_, hround⟩ := hpurges
      have hr := Turn.step_round hstep
      rw [hround] at hr
      have hkept : t'.runner.currInterval = t.runner.currInterval :=
        (congrArg Runner.currInterval (Option.some.inj hr)).symm
      rw [hkept]
      exact ht

end Timers

/-- A processor of a node that the metadata cannot tell anything about. -/
def strandedProcessor : NodeProcessor :=
  { nodeID := 1, done := true, queue := QState.fresh 0 0 Disk.empty }

/-- Points are not looked at. -/
def anyPoints : PointCodec Unit := { string := fun _ => [], parsePoints := fun _ => none }

/-- A second after the start the first retry fails. -/
def firstRetry : Turn Unit :=
  { round := .retry
      [{ meanwhile := id,
         env := { dataNode := fun _ => .error .dataNode, writeShard := fun _ _ _ => .ok () } }]
    woken := 1000000000
    back := 1000000000 }

/-- A second and a half later it is time for a purge, and not for the next retry. -/
def firstPurge : Turn Unit :=
  { round := .purge id 0 0, woken := 2500000000, back := 2500000000 }

/-- The default settings with a `PurgeInterval` of a second and a half: the processor has given up
    after one failure. -/
theorem timers_starve_after_one_failure :
    ∃ t t', [firstRetry].foldlM (Turn.step anyPoints defaultRetry 1500000000)
        (TimedRunner.start defaultRetry strandedProcessor 0) = some t ∧
      [firstPurge].foldlM (Turn.step anyPoints defaultRetry 1500000000) t = some t' ∧
      t.runner.currInterval = 2000000000 ∧
      ∀ turn ∈ [firstPurge], turn.Purges := by
  have hrun : [firstRetry].foldlM (Turn.step anyPoints defaultRetry 1500000000)
      (TimedRunner.start defaultRetry strandedProcessor 0)
      = some { runner := { currInterval := 2000000000, n := strandedProcessor },
               since := 1000000000 } := rfl
  have hlater : [firstPurge].foldlM (Turn.step anyPoints defaultRetry 1500000000)
      { runner := { currInterval := 2000000000, n := strandedProcessor }, since := 1000000000 }
      = some { runner := { currInterval := 2000000000, n := strandedProcessor },
               since := 2500000000 } := rfl
  refine ⟨_, _, hrun, hlater, rfl, ?_⟩
  exact (timers_starve hrun ⟨fun _ => by decide, fun _ _ => trivial⟩ hlater
    ⟨fun _ => by decide, fun _ _ => trivial⟩).2 (by decide)

end InfluxCluster.HH
