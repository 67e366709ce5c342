/-
  The waits of the hinted-handoff processor (`hh/node_processor.go`, `run`).

  `run` waits for `currInterval`, then sends block after block until `SendWrite` returns an error,
  and waits again.  After a block that was sent, and at the end of the queue, the interval is
  `RetryInterval`; after any other error it is DOUBLED and cut to `RetryMaxInterval`.

  What that is for is exponential BACK-OFF: after `k` failures in a row the wait is
  `min (RetryInterval * 2^k) RetryMaxInterval` (`backoff`).  Two things stand between:

  * the interval is cut at the start and after it was doubled, but NOT where it is set back to
    `RetryInterval`, which may be above the maximum;
  * durations are an `int64`.  What is doubled from 2^62 on is negative, and nothing negative is
    above the maximum.

  So the waits are positive and at most the maximum, whatever `SendWrite` returns, exactly if
  `RetryInterval ≤ RetryMaxInterval < 2^62`, and then they are those of `backoff`
  (`interval_eq_backoff`).  For one sequence of outcomes the condition is on the interval that each
  of them finds (`retry_waits_bounded_iff`).

  The outcomes are any here.  `Round.step` is `run` on a processor, whose queue decides about them
  together with the node and what other goroutines do meanwhile.
-/
import InfluxCluster.HH.NodeProcessor
import InfluxCluster.Lib.Lockstep

namespace InfluxCluster.HH

open InfluxCluster.Lib

/-! ## Exponential back-off -/

section Backoff

variable {base cap : Int}

/-- The wait after `k` failures in a row. -/
def backoff (base cap : Int) (k : Nat) : Int := min (base * 2 ^ k) cap

theorem backoff_zero (h : base ≤ cap) : backoff base cap 0 = base := by
  rw [backoff, Int.pow_zero, Int.mul_one]
  omega

/-- One more failure doubles the wait, up to the cap. -/
theorem backoff_succ (hcap : 0 ≤ cap) (k : Nat) :
    backoff base cap (k + 1) = min (backoff base cap k * 2) cap := by
  rw [backoff, backoff, Int.pow_succ, ← Int.mul_assoc]
  omega

theorem backoff_le (k : Nat) : backoff base cap k ≤ cap := Int.min_le_right _ _

/-- The wait grows beyond every bound that the cap allows. -/
theorem le_backoff (hbase : 0 < base) {k : Nat} (hcap : 2 ^ k ≤ cap) :
    2 ^ k ≤ backoff base cap k := by
  have hpow : (0 : Int) < 2 ^ k := Int.pow_pos (by decide)
  have hgrown : 1 * 2 ^ k ≤ base * 2 ^ k :=
    Int.mul_le_mul_of_nonneg_right hbase (Int.le_of_lt hpow)
  rw [backoff]
  omega

theorem backoff_pos (hbase : 0 < base) (hcap : 0 < cap) (k : Nat) : 0 < backoff base cap k := by
  have hpow : (0 : Int) < 2 ^ k := Int.pow_pos (by decide)
  have hgrown : 0 < base * 2 ^ k := Int.mul_pos hbase hpow
  rw [backoff]
  omega

end Backoff

/-! ## `run`, as far as its intervals go -/

/-- `time.Duration`, in nanoseconds. -/
abbrev Duration := Int64

/-- What `SendWrite` returns: how many bytes it sent, or an error. -/
abbrev SendOutcome := Except NErr Nat

/-- The fields of the processor that `run` takes its intervals from. -/
structure RetryConfig where
  retryInterval : Duration
  retryMaxInterval : Duration

/-- `DefaultRetryInterval` and `DefaultRetryMaxInterval`, as `NewNodeProcessor` sets them. -/
def defaultRetry : RetryConfig :=
  { retryInterval := 1000000000, retryMaxInterval := 60000000000 }

namespace RetryConfig

variable (cfg : RetryConfig)

/-- `if currInterval > RetryMaxInterval { currInterval = RetryMaxInterval }`. -/
def capped (currInterval : Duration) : Duration :=
  if currInterval > cfg.retryMaxInterval then cfg.retryMaxInterval else currInterval

/-- `currInterval` at the start. -/
def firstInterval : Duration := cfg.capped cfg.retryInterval

/-- `currInterval` after a call of `SendWrite`. -/
def afterSend (currInterval : Duration) : SendOutcome → Duration
  | .error err =>
    if err = .queue .eof then cfg.retryInterval
    else cfg.capped (currInterval * 2)
  | .ok _ => cfg.retryInterval

/-- The intervals that are waited for after these outcomes, from a call of `SendWrite` on. -/
def waitsFrom (currInterval : Duration) : List SendOutcome → List Duration
  | [] => []
  -- the next block, without a wait for the interval
  | .ok c :: outcomes => waitsFrom (cfg.afterSend currInterval (.ok c)) outcomes
  -- the inner loop is left, and the select waits
  | .error err :: outcomes =>
    cfg.afterSend currInterval (.error err)
      :: waitsFrom (cfg.afterSend currInterval (.error err)) outcomes

/-- **The intervals that `run` waits for**, if its calls of `SendWrite` have these outcomes. -/
def waits (outcomes : List SendOutcome) : List Duration :=
  cfg.firstInterval :: cfg.waitsFrom cfg.firstInterval outcomes

/-- The interval is positive and at most the maximum. -/
def InRange (d : Duration) : Prop := 0 < d ∧ d ≤ cfg.retryMaxInterval

/-- The outcome does no harm to the interval that it finds: it does not set an interval above the
    maximum, and doubles none that is too large for that. -/
def Mild (currInterval : Duration) : SendOutcome → Prop
  | .error err =>
    if err = .queue .eof then cfg.retryInterval ≤ cfg.retryMaxInterval
    else currInterval.toInt < 2 ^ 62
  | .ok _ => True

/-- An empty queue resets the interval. -/
theorem afterSend_eof (d : Duration) :
    cfg.afterSend d (.error (.queue .eof)) = cfg.retryInterval := rfl

/-- A failure doubles it, up to the cap. -/
theorem afterSend_failed (d : Duration) {err : NErr} (h : err ≠ .queue .eof) :
    cfg.afterSend d (.error err) = cfg.capped (d * 2) := if_neg h

theorem mild_failed (d : Duration) {err : NErr} (h : err ≠ .queue .eof) :
    cfg.Mild d (.error err) ↔ d.toInt < 2 ^ 62 := Iff.of_eq (if_neg h)

theorem inRange_iff {d : Duration} :
    cfg.InRange d ↔ 0 < d.toInt ∧ d.toInt ≤ cfg.retryMaxInterval.toInt := by
  rw [InRange, Int64.lt_iff_toInt_lt, Int64.le_iff_toInt_le]
  rfl

theorem toInt_capped (d : Duration) :
    (cfg.capped d).toInt = min d.toInt cfg.retryMaxInterval.toInt := by
  unfold capped
  split
  · rename_i hlt
    rw [gt_iff_lt, Int64.lt_iff_toInt_lt] at hlt
    omega
  · rename_i hle
    rw [gt_iff_lt, Int64.lt_iff_toInt_lt] at hle
    omega

end RetryConfig

/-- **Doubling an `int64`**: exact below 2^62, and negative from there on. -/
theorem toInt_mul_two {d : Duration} (h : 0 < d.toInt) :
    (d * 2).toInt = if d.toInt < 2 ^ 62 then d.toInt * 2 else d.toInt * 2 - 2 ^ 64 := by
  have hlt : d.toInt < 2 ^ 63 := d.toInt_lt
  rw [Int64.toInt_mul, show (2 : Int64).toInt = 2 from rfl]
  split
  · exact Int.bmod_eq_of_le (by omega) (by omega)
  · rw [← Int.sub_bmod_right]
    exact Int.bmod_eq_of_le (by omega) (by omega)

namespace RetryConfig

variable {cfg : RetryConfig}

/-- Both intervals are positive. -/
structure Positive (cfg : RetryConfig) : Prop where
  base : 0 < cfg.retryInterval.toInt
  max : 0 < cfg.retryMaxInterval.toInt

/-- Doubled and cut, an interval is in range exactly if it was below 2^62. -/
theorem inRange_capped_double_iff (hcfg : cfg.Positive) {d : Duration}
    (hd : 0 < d.toInt) : cfg.InRange (cfg.capped (d * 2)) ↔ d.toInt < 2 ^ 62 := by
  have hlt : d.toInt < 2 ^ 63 := d.toInt_lt
  have hmax := hcfg.max
  rw [inRange_iff, toInt_capped, toInt_mul_two hd]
  split
  · omega
  · omega

/-- The first interval is positive and within the cap. -/
theorem inRange_firstInterval (hcfg : cfg.Positive) : cfg.InRange cfg.firstInterval := by
  have hbase := hcfg.base
  have hmax := hcfg.max
  rw [inRange_iff, firstInterval, toInt_capped]
  omega

/-! ## One outcome, and a sequence of them -/

/-- **An error leaves the interval in range exactly if it is mild.** -/
theorem inRange_afterSend_iff (hcfg : cfg.Positive) {d : Duration} (hd : 0 < d.toInt)
    (err : NErr) :
    cfg.InRange (cfg.afterSend d (.error err)) ↔ cfg.Mild d (.error err) := by
  by_cases heof : err = .queue .eof
  · subst heof
    rw [afterSend_eof, inRange_iff, and_iff_right hcfg.base]
    exact Int64.le_iff_toInt_le.symm
  · rw [afterSend_failed cfg d heof, mild_failed cfg d heof]
    exact inRange_capped_double_iff hcfg hd

/-- **The waits are in range exactly if every outcome is mild.**  As long as they are, only positive
    intervals are doubled. -/
theorem waitsFrom_inRange_iff (hcfg : cfg.Positive) {d : Duration} (hd : 0 < d.toInt)
    (outcomes : List SendOutcome) :
    (∀ e ∈ cfg.waitsFrom d outcomes, cfg.InRange e)
      ↔ Throughout cfg.afterSend cfg.Mild d outcomes := by
  induction outcomes generalizing d with
  | nil => exact ⟨fun _ k o hk => (by cases hk), fun _ e he => (by cases he)⟩
  | cons outcome outcomes ih =>
    rw [throughout_cons]
    cases outcome with
    | ok c =>
      -- the interval is RetryInterval, whatever it was
      have hpos : 0 < (cfg.afterSend d (.ok c)).toInt := hcfg.base
      rw [waitsFrom, ih hpos]
      exact (and_iff_right trivial).symm
    | error err =>
      rw [waitsFrom, List.forall_mem_cons, inRange_afterSend_iff hcfg hd]
      refine and_congr_right fun hmild => ih ?_
      exact (cfg.inRange_iff.mp ((inRange_afterSend_iff hcfg hd err).mpr hmild)).1

/-- **All waits are in range exactly if no doubling overflows.** -/
theorem waits_inRange_iff (hcfg : cfg.Positive) (outcomes : List SendOutcome) :
    (∀ d ∈ cfg.waits outcomes, cfg.InRange d)
      ↔ Throughout cfg.afterSend cfg.Mild cfg.firstInterval outcomes := by
  have hfirst : cfg.InRange cfg.firstInterval := inRange_firstInterval hcfg
  rw [waits, List.forall_mem_cons, waitsFrom_inRange_iff hcfg (cfg.inRange_iff.mp hfirst).1]
  exact and_iff_right hfirst

/-! ## All sequences of outcomes -/

/-- The failures in a row after an outcome. -/
def failuresAfter (k : Nat) : SendOutcome → Nat
  | .error err => if err = .queue .eof then 0 else k + 1
  | .ok _ => 0

theorem failuresAfter_eof (k : Nat) : failuresAfter k (.error (.queue .eof)) = 0 := rfl

theorem failuresAfter_failed (k : Nat) {err : NErr} (h : err ≠ .queue .eof) :
    failuresAfter k (.error err) = k + 1 := if_neg h

/-- The interval of the back-off after `k` failures. -/
def nth (cfg : RetryConfig) (k : Nat) : Int :=
  backoff cfg.retryInterval.toInt cfg.retryMaxInterval.toInt k

/-- An interval of the back-off is doubled to the next one, unless it is too large for that. -/
theorem toInt_capped_double (hcfg : cfg.Positive) {d : Duration} {k : Nat}
    (hd : d.toInt = cfg.nth k) (hlt : d.toInt < 2 ^ 62) :
    (cfg.capped (d * 2)).toInt = cfg.nth (k + 1) := by
  have hpos : 0 < d.toInt := hd ▸ backoff_pos hcfg.base hcfg.max k
  rw [toInt_capped, toInt_mul_two hpos, if_pos hlt, nth, backoff_succ (Int.le_of_lt hcfg.max), hd,
    nth]

theorem toInt_firstInterval : cfg.firstInterval.toInt = cfg.nth 0 := by
  rw [firstInterval, toInt_capped, nth, backoff, Int.pow_zero, Int.mul_one]

/-- **The settings for which the back-off works.** -/
structure Sane (cfg : RetryConfig) : Prop where
  base_pos : 0 < cfg.retryInterval.toInt
  base_le : cfg.retryInterval.toInt ≤ cfg.retryMaxInterval.toInt
  max_lt : cfg.retryMaxInterval.toInt < 2 ^ 62

namespace Sane

theorem positive (h : cfg.Sane) : cfg.Positive :=
  ⟨h.base_pos, Int.lt_of_lt_of_le h.base_pos h.base_le⟩

/-- `RetryInterval` needs no cut. -/
theorem toInt_retryInterval (h : cfg.Sane) : cfg.retryInterval.toInt = cfg.nth 0 :=
  (backoff_zero h.base_le).symm

/-- One outcome is a step of the back-off. -/
theorem afterSend_eq_nth (h : cfg.Sane) {d : Duration} {k : Nat} (hd : d.toInt = cfg.nth k)
    (outcome : SendOutcome) :
    (cfg.afterSend d outcome).toInt = cfg.nth (failuresAfter k outcome) := by
  cases outcome with
  | ok c => exact h.toInt_retryInterval
  | error err =>
    by_cases heof : err = .queue .eof
    · subst heof
      rw [afterSend_eof, failuresAfter_eof]
      exact h.toInt_retryInterval
    · have hcapped : d.toInt ≤ cfg.retryMaxInterval.toInt := hd ▸ backoff_le k
      rw [afterSend_failed cfg d heof, failuresAfter_failed k heof]
      exact toInt_capped_double h.positive hd (Int.lt_of_le_of_lt hcapped h.max_lt)

/-- A sequence of outcomes is a run of it. -/
theorem foldl_eq_nth (h : cfg.Sane) {d : Duration} {k : Nat} (hd : d.toInt = cfg.nth k)
    (outcomes : List SendOutcome) :
    (outcomes.foldl cfg.afterSend d).toInt = cfg.nth (outcomes.foldl failuresAfter k) := by
  induction outcomes generalizing d k with
  | nil => exact hd
  | cons outcome outcomes ih => exact ih (h.afterSend_eq_nth hd outcome)

/-- **The interval is that of the back-off**, by the failures since the last block that was sent or
    the last time that the queue was at its end. -/
theorem interval_eq_backoff (h : cfg.Sane) (outcomes : List SendOutcome) :
    (outcomes.foldl cfg.afterSend cfg.firstInterval).toInt
      = backoff cfg.retryInterval.toInt cfg.retryMaxInterval.toInt
          (outcomes.foldl failuresAfter 0) :=
  h.foldl_eq_nth toInt_firstInterval outcomes

/-- So every outcome is mild. -/
theorem mild_throughout (h : cfg.Sane) (outcomes : List SendOutcome) :
    Throughout cfg.afterSend cfg.Mild cfg.firstInterval outcomes := by
  intro k outcome _
  cases outcome with
  | ok c => trivial
  | error err =>
    by_cases heof : err = .queue .eof
    · subst heof
      exact Int64.le_iff_toInt_le.mpr h.base_le
    · rw [mild_failed cfg _ heof, h.interval_eq_backoff]
      exact Int.lt_of_le_of_lt (backoff_le _) h.max_lt

end Sane

/-- `writer.WriteShard` fails. -/
def failed : SendOutcome := .error .writeShard

/-- The interval after `k` failures, if none of them is one too many. -/
theorem interval_failures (hcfg : cfg.Positive)
    (hmild : ∀ k, ((List.replicate k failed).foldl cfg.afterSend cfg.firstInterval).toInt < 2 ^ 62)
    (k : Nat) :
    ((List.replicate k failed).foldl cfg.afterSend cfg.firstInterval).toInt
      = cfg.nth k := by
  induction k with
  | zero => exact toInt_firstInterval
  | succ k ih =>
    rw [List.replicate_succ', List.foldl_concat]
    exact toInt_capped_double hcfg ih (hmild k)

/-- **With a maximum from 2^62 on, 62 failures are too many.** -/
theorem max_lt_of_mild (hcfg : cfg.Positive)
    (h : ∀ outcomes, Throughout cfg.afterSend cfg.Mild cfg.firstInterval outcomes) :
    cfg.retryMaxInterval.toInt < 2 ^ 62 := by
  have hmild : ∀ k,
      ((List.replicate k failed).foldl cfg.afterSend cfg.firstInterval).toInt < 2 ^ 62 := by
    intro k
    have hk := h (List.replicate (k + 1) failed) k failed (by simp)
    rwa [List.take_replicate, Nat.min_eq_left (Nat.le_succ k)] at hk
  by_contra hge
  have hlarge := le_backoff hcfg.base (Int.not_lt.mp hge)
  have h62 := hmild 62
  rw [interval_failures hcfg hmild 62, nth] at h62
  omega

end RetryConfig

/-- **The waits are positive and at most `RetryMaxInterval` exactly if no outcome does harm**: the end
    of the queue does if `RetryInterval` is above the maximum, and another error if it finds an
    interval from 2^62 on.  So they are for all outcomes exactly if
    `RetryInterval ≤ RetryMaxInterval < 2^62`. -/
theorem retry_waits_bounded_iff (cfg : RetryConfig) (hbase : 0 < cfg.retryInterval)
    (hmax : 0 < cfg.retryMaxInterval) :
    (∀ outcomes, (∀ d ∈ cfg.waits outcomes, 0 < d ∧ d ≤ cfg.retryMaxInterval)
      ↔ Throughout cfg.afterSend cfg.Mild cfg.firstInterval outcomes) ∧
    ((∀ outcomes, ∀ d ∈ cfg.waits outcomes, 0 < d ∧ d ≤ cfg.retryMaxInterval)
      ↔ cfg.retryInterval ≤ cfg.retryMaxInterval ∧ cfg.retryMaxInterval.toInt < 2 ^ 62) := by
  rw [Int64.lt_iff_toInt_lt] at hbase hmax
  have hcfg : cfg.Positive := ⟨hbase, hmax⟩
  have hone := RetryConfig.waits_inRange_iff hcfg
  refine ⟨hone, ?_, ?_⟩
  · intro hall
    have hmild := fun outcomes => (hone outcomes).mp (hall outcomes)
    refine ⟨?_, RetryConfig.max_lt_of_mild hcfg hmild⟩
    -- the queue is at its end
    exact hmild [.error (.queue .eof)] 0 _ rfl
  · rintro ⟨hle, hlt⟩ outcomes
    rw [Int64.le_iff_toInt_le] at hle
    have hsane : cfg.Sane := ⟨hbase, hle, hlt⟩
    exact (hone outcomes).mpr (hsane.mild_throughout outcomes)

/-- The defaults, a second and a minute. -/
theorem default_retry_bounded :
    (0 < defaultRetry.retryInterval ∧ 0 < defaultRetry.retryMaxInterval) ∧
      ∀ outcomes, ∀ d ∈ defaultRetry.waits outcomes,
        0 < d ∧ d ≤ defaultRetry.retryMaxInterval :=
  ⟨by decide, (retry_waits_bounded_iff defaultRetry (by decide) (by decide)).2.mpr (by decide)⟩

/-- **Ten minutes with the default maximum**: at the end of the queue the wait is ten minutes.  And
    2^62 ns are doubled to a negative interval, and that one to none at all. -/
theorem retry_waits_unbounded :
    (RetryConfig.waits ⟨600000000000, 60000000000⟩ [.error (.queue .eof)]
        = [60000000000, 600000000000] ∧
      ¬ ∀ d ∈ RetryConfig.waits ⟨600000000000, 60000000000⟩ [.error (.queue .eof)],
        0 < d ∧ d ≤ 60000000000) ∧
    RetryConfig.waits ⟨4611686018427387904, 4611686018427387904⟩
        [RetryConfig.failed, RetryConfig.failed]
      = [4611686018427387904, -9223372036854775808, 0] ∧
    ¬ ∀ d ∈ RetryConfig.waits ⟨4611686018427387904, 4611686018427387904⟩
        [RetryConfig.failed, RetryConfig.failed],
      0 < d ∧ d ≤ 4611686018427387904 := by
  have heof : RetryConfig.waits ⟨600000000000, 60000000000⟩ [.error (.queue .eof)]
      = [60000000000, 600000000000] := by decide
  have hfailed : RetryConfig.waits ⟨4611686018427387904, 4611686018427387904⟩
      [RetryConfig.failed, RetryConfig.failed]
      = [4611686018427387904, -9223372036854775808, 0] := by decide
  refine ⟨⟨heof, ?_⟩, hfailed, ?_⟩
  · rw [heof]
    intro h
    have hten := (h 600000000000 (List.mem_cons_of_mem _ List.mem_cons_self)).2
    exact absurd hten (by decide)
  · rw [hfailed]
    intro h
    have hnegative := (h (-9223372036854775808) (List.mem_cons_of_mem _ List.mem_cons_self)).1
    exact absurd hnegative (by decide)

/-! ## `run` on a processor -/

section Run

variable {Point : Type} (c : PointCodec Point) (cfg : RetryConfig)

/-- A call of `SendWrite`: what other goroutines have made of the processor since the last one, and
    the answers that it gets. -/
structure SendAttempt (Point : Type) where
  meanwhile : NodeProcessor → NodeProcessor
  env : Env Point

/-- `run`, at its `select`. -/
structure Runner where
  currInterval : Duration
  n : NodeProcessor

/-- The inner loop; `none` if it goes on after these calls. -/
def sendLoop : List (SendAttempt Point) → Runner → Option Runner
  | [], _ => none
  | attempt :: attempts, r =>
    match NodeProcessor.sendWrite c attempt.env (attempt.meanwhile r.n) with
    | .error err n => some { currInterval := cfg.afterSend r.currInterval (.error err), n := n }
    | .ok sent n =>
      sendLoop attempts { currInterval := cfg.afterSend r.currInterval (.ok sent), n := n }

/-- A case of the `select` other than `done`. -/
inductive Round (Point : Type)
  | purge (meanwhile : NodeProcessor → NodeProcessor) (fuel : Nat) (when_ : Time)
  | retry (attempts : List (SendAttempt Point))

/-- One turn of the outer loop; an error of `PurgeOlderThan` is only logged. -/
def Round.step (r : Runner) : Round Point → Option Runner
  | .purge meanwhile fuel when_ =>
    some { r with
      n := final (NodeProcessor.callLogged (Queue.purgeOlderThan fuel when_) (meanwhile r.n)) }
  | .retry attempts => sendLoop c cfg attempts r

def Runner.start (n : NodeProcessor) : Runner := { currInterval := cfg.firstInterval, n := n }

variable {c cfg}

/-- The inner loop has the outcomes of its calls, and the interval after them is waited for. -/
theorem sendLoop_outcomes {attempts : List (SendAttempt Point)} {r r' : Runner}
    (h : sendLoop c cfg attempts r = some r') :
    ∃ outcomes, r'.currInterval = outcomes.foldl cfg.afterSend r.currInterval ∧
      r'.currInterval ∈ cfg.waitsFrom r.currInterval outcomes := by
  induction attempts generalizing r with
  | nil => cases h
  | cons attempt attempts ih =>
    rw [sendLoop] at h
    split at h
    · rename_i err n _
      cases h
      exact ⟨[.error err], rfl, List.mem_cons_self⟩
    · rename_i sent n _
      obtain ⟨outcomes, hlast, hmem⟩ := ih h
      exact ⟨.ok sent :: outcomes, hlast, hmem⟩

end Run

end InfluxCluster.HH
