/-
  Closing hinted handoff (`hh/node_processor.go`, `Close` and `run`; `hh/service.go`, `Close` and
  `purgeInactiveProcessors`).

  Both `Close` methods take the write lock, close a channel, and wait for a goroutine with the lock
  still held (`defer Unlock`).  Both goroutines take that lock themselves: `run` for reading in each
  `SendWrite`, `purgeInactiveProcessors` for writing in each pass.  They look at the channel only in
  their `select`, and

  * `run` sends block after block WITHOUT coming back to it;
  * a `select` with a timer that is due as well may take either case.

  So both can deadlock, and exactly in these ways (`close_deadlock_free_iff`).
-/
import InfluxCluster.Lib.Shutdown

namespace InfluxCluster.HH

open InfluxCluster.Lib

/-! ## `run` -/

/-- Where `run` is: at its `select`, in `PurgeOlderThan`, before `RLock` in `SendWrite`, in
    `SendWrite` with the lock, in the sleep between two blocks, or at its end. -/
inductive RunPlace
  | select
  | purging
  | atRLock
  | sending
  | sleeping
  | returned
  deriving DecidableEq

/-- What `run` does next; the first three are the cases of its `select`. -/
inductive RunMove
  | done
  | purgeInterval
  | retryInterval
  | purged
  | rlock
  | sent
  | failed
  | slept
  deriving DecidableEq

/-- One move of `run`. -/
def RunPlace.next (closed : Bool) : RunPlace → RunMove → Option RunPlace
  | .select, .done => if closed then some .returned else none
  | .select, .purgeInterval => some .purging
  | .select, .retryInterval => some .atRLock
  | .purging, .purged => some .select
  | .atRLock, .rlock => some .sending
  | .sending, .sent => some .sleeping
  -- an error or the end of the queue leaves the inner loop
  | .sending, .failed => some .select
  -- the next block, without a look at the channel
  | .sleeping, .slept => some .atRLock
  | _, _ => none

/-- How `run` stands to `n.mu`. -/
def RunPlace.stand : RunPlace → Stand
  | .atRLock => .wants
  | .sending => .holds
  | .returned => .returned
  | _ => .clear

/-- The goroutine of a `NodeProcessor`. -/
def run : Worker where
  Place := RunPlace
  Move := RunMove
  start := .select
  stand := RunPlace.stand
  exclusive := false
  next := RunPlace.next
  asks
    | .retryInterval | .slept => true
    | _ => false
  asks_iff := by
    intro closed p m p' h
    cases closed <;> cases p <;> cases m <;> cases h <;> decide
  takes := by
    intro closed p m p' h hp
    cases p <;> cases hp
    cases m <;> cases h
    rfl

/-! ## `purgeInactiveProcessors` -/

/-- Where `purgeInactiveProcessors` is: at its `select`, before `Lock`, in a pass, or at its end. -/
inductive PurgerPlace
  | select
  | atLock
  | passing
  | returned
  deriving DecidableEq

/-- What it does next; the first two are the cases of its `select`. -/
inductive PurgerMove
  | closing
  | tick
  | lock
  | passed
  deriving DecidableEq

/-- One move of `purgeInactiveProcessors`. -/
def PurgerPlace.next (closed : Bool) : PurgerPlace → PurgerMove → Option PurgerPlace
  | .select, .closing => if closed then some .returned else none
  | .select, .tick => some .atLock
  | .atLock, .lock => some .passing
  | .passing, .passed => some .select
  | _, _ => none

/-- How it stands to `s.mu`. -/
def PurgerPlace.stand : PurgerPlace → Stand
  | .select => .clear
  | .atLock => .wants
  | .passing => .holds
  | .returned => .returned

/-- The goroutine of a `Service`. -/
def purgeInactiveProcessors : Worker where
  Place := PurgerPlace
  Move := PurgerMove
  start := .select
  stand := PurgerPlace.stand
  exclusive := true
  next := PurgerPlace.next
  asks
    | .tick => true
    | _ => false
  asks_iff := by
    intro closed p m p' h
    cases closed <;> cases p <;> cases m <;> cases h <;> decide
  takes := by
    intro closed p m p' h hp
    cases p <;> cases hp
    cases m <;> cases h
    rfl

/-! ## `Close` -/

/-- `Close` of a processor does not begin to wait while `run` stands before the lock; and during the
    wait `run` neither takes the retry timer, nor goes on to another block. -/
def RunYields (s : Closing run) : ClosingOp run → Prop
  | .wait => s.place ≠ RunPlace.atRLock
  | .move .retryInterval => s.closer ≠ .waiting
  | .move .slept => s.closer ≠ .waiting
  | _ => True

/-- `Close` of the service does not begin to wait while `purgeInactiveProcessors` stands before the
    lock; and during the wait that does not take the ticker. -/
def PurgerYields (s : Closing purgeInactiveProcessors) : ClosingOp purgeInactiveProcessors → Prop
  | .wait => s.place ≠ PurgerPlace.atLock
  | .move .tick => s.closer ≠ .waiting
  | _ => True

theorem RunPlace.stand_eq_wants (p : RunPlace) : p.stand = .wants ↔ p = .atRLock := by
  cases p <;> decide

theorem PurgerPlace.stand_eq_wants (p : PurgerPlace) : p.stand = .wants ↔ p = .atLock := by
  cases p <;> decide

theorem runYields_iff (s : Closing run) (op : ClosingOp run) : op.Avoids s ↔ RunYields s op := by
  cases op with
  | move m =>
    cases m with
    | retryInterval | slept => exact imp_congr_right fun _ => iff_of_false Bool.noConfusion id
    | _ => exact iff_of_true (fun _ => rfl) trivial
  | wait => exact not_congr (RunPlace.stand_eq_wants s.place)
  | _ => exact Iff.rfl

theorem purgerYields_iff (s : Closing purgeInactiveProcessors)
    (op : ClosingOp purgeInactiveProcessors) : op.Avoids s ↔ PurgerYields s op := by
  cases op with
  | move m =>
    cases m with
    | tick => exact imp_congr_right fun _ => iff_of_false Bool.noConfusion id
    | _ => exact iff_of_true (fun _ => rfl) trivial
  | wait => exact not_congr (PurgerPlace.stand_eq_wants s.place)
  | _ => exact Iff.rfl

/-- **Closing is free of deadlock exactly if the goroutine does not stand before the lock when the
    wait begins, and does not go there during it.** -/
theorem close_deadlock_free_iff (ops : List (ClosingOp run))
    (serviceOps : List (ClosingOp purgeInactiveProcessors)) :
    ((∀ k s, (ops.take k).foldlM ClosingOp.step (Closing.start run) = some s → ¬ s.Deadlocked)
        ↔ Along ClosingOp.step (fun s op => (ClosingOp.step s op).isSome → RunYields s op)
            (Closing.start run) ops) ∧
    ((∀ k s, (serviceOps.take k).foldlM ClosingOp.step (Closing.start purgeInactiveProcessors)
          = some s → ¬ s.Deadlocked)
        ↔ Along ClosingOp.step (fun s op => (ClosingOp.step s op).isSome → PurgerYields s op)
            (Closing.start purgeInactiveProcessors) serviceOps) := by
  constructor
  · rw [never_deadlocked_iff]
    exact along_congr (fun s op => imp_congr_right fun _ => runYields_iff s op) ops _
  · rw [never_deadlocked_iff]
    exact along_congr (fun s op => imp_congr_right fun _ => purgerYields_iff s op) serviceOps _

/-- A block was sent and there is another one, when `Close` takes the lock. -/
def closedBetweenBlocks : List (ClosingOp run) :=
  [.move .retryInterval, .move .rlock, .move .sent, .lock, .wait, .move .slept]

/-- The ticker was due when `Close` took the lock. -/
def closedAtTick : List (ClosingOp purgeInactiveProcessors) :=
  [.move .tick, .lock, .wait]

/-- `Close` hangs: whatever happens from here on, it does not return. -/
def Hangs {W : Worker} (s : Closing W) : Prop :=
  s.Deadlocked ∧ ∀ (ops : List (ClosingOp W)) (s' : Closing W),
    ops.foldlM ClosingOp.step s = some s' → s'.closer = .waiting

theorem hangs_of_deadlocked {W : Worker} {s : Closing W} (h : s.Deadlocked) : Hangs s :=
  ⟨h, fun _ _ hrun => (h.run hrun).1⟩

/-- **Both can hang.** -/
theorem close_hangs :
    (∃ s, closedBetweenBlocks.foldlM ClosingOp.step (Closing.start run) = some s ∧ Hangs s) ∧
    (∃ s, closedAtTick.foldlM ClosingOp.step (Closing.start purgeInactiveProcessors) = some s ∧
      Hangs s) :=
  ⟨⟨_, rfl, hangs_of_deadlocked ⟨rfl, rfl⟩⟩, ⟨_, rfl, hangs_of_deadlocked ⟨rfl, rfl⟩⟩⟩

end InfluxCluster.HH
