/-
  Shutting down a goroutine while holding a lock that it uses.

  A WORKER goes its way by itself: it stands clear of the lock, wants it, holds it, or has returned.
  Whoever closes it takes the lock for writing, tells it to return (by a channel that is closed),
  and WAITS for that with the lock still in hand.  If the worker wants the lock then, neither can
  ever go on (`Deadlocked.step`).

  The lock is a read-write lock: any number of readers, or one writer.  Others use it as well; they
  come and go.

  A run is free of the deadlock exactly if the wait never begins while the worker wants the lock,
  and the worker never goes for the lock during the wait (`never_deadlocked_iff`).
-/
import Mathlib.Tactic.SplitIfs
import InfluxCluster.Lib.Lockstep

namespace InfluxCluster.Lib

/-- How a worker stands to the lock. -/
inductive Stand
  | clear
  | wants
  | holds
  | returned
  deriving DecidableEq

/-- A goroutine: its places, and the moves between them. -/
structure Worker where
  Place : Type
  Move : Type
  start : Place
  stand : Place → Stand
  /-- It takes the lock for writing. -/
  exclusive : Bool
  /-- Where a move leads; `closed` says whether it has been told to return. -/
  next : (closed : Bool) → Place → Move → Option Place
  /-- The moves that lead to the lock. -/
  asks : Move → Bool
  asks_iff : ∀ {closed p m p'}, next closed p m = some p' → (stand p' = .wants ↔ asks m = true)
  /-- From the lock it goes on only with the lock. -/
  takes : ∀ {closed p m p'}, next closed p m = some p' → stand p = .wants → stand p' = .holds

/-- The one who closes the worker. -/
inductive Closer
  | idle
  | locked
  | waiting
  | done
  deriving DecidableEq

/-- The two of them and the lock: how many other calls hold it for reading, and whether one does for
    writing. -/
structure Closing (W : Worker) where
  place : W.Place
  closer : Closer
  readers : Nat
  writing : Bool

/-- What happens: a move of the worker; the closer takes the lock, gives it back because there is
    nothing to do, begins to wait, or has waited; others take and give back the lock. -/
inductive ClosingOp (W : Worker)
  | move (m : W.Move)
  | lock
  | release
  | wait
  | finish
  | otherRLock
  | otherRUnlock
  | otherLock
  | otherUnlock

variable {W : Worker}

/-- Both before they begin. -/
def Closing.start (W : Worker) : Closing W :=
  { place := W.start, closer := .idle, readers := 0, writing := false }

/-- The worker has been told to return. -/
def Closing.closed (s : Closing W) : Bool := s.closer = .waiting ∨ s.closer = .done

/-- Neither the closer nor another call holds the lock for writing. -/
def Closing.Readable (s : Closing W) : Prop :=
  s.closer ≠ .locked ∧ s.closer ≠ .waiting ∧ s.writing = false

/-- Nor does a call hold it for reading. -/
def Closing.Writable (s : Closing W) : Prop := s.Readable ∧ s.readers = 0

instance (s : Closing W) : Decidable s.Readable := inferInstanceAs (Decidable (_ ∧ _ ∧ _))

instance (s : Closing W) : Decidable s.Writable := inferInstanceAs (Decidable (_ ∧ _))

/-- The worker may go from its place to this one: it gets the lock when the lock is free for it. -/
def Closing.Admits (s : Closing W) (p : W.Place) : Prop :=
  W.stand p = .holds → W.stand s.place = .wants →
    if W.exclusive then s.Writable else s.Readable

instance (s : Closing W) (p : W.Place) : Decidable (s.Admits p) :=
  inferInstanceAs (Decidable (_ → _ → _))

/-- One step; `none` if it has to wait. -/
def ClosingOp.step (s : Closing W) : ClosingOp W → Option (Closing W)
  | .move m =>
    match W.next s.closed s.place m with
    | none => none
    | some p => if s.Admits p then some { s with place := p } else none
  | .lock =>
    if s.closer = .idle ∧ s.Writable ∧ W.stand s.place ≠ .holds then
      some { s with closer := .locked }
    else none
  | .release => if s.closer = .locked then some { s with closer := .idle } else none
  | .wait => if s.closer = .locked then some { s with closer := .waiting } else none
  | .finish =>
    if s.closer = .waiting ∧ W.stand s.place = .returned then some { s with closer := .done }
    else none
  | .otherRLock =>
    if s.Readable ∧ (W.exclusive → W.stand s.place ≠ .holds) then
      some { s with readers := s.readers + 1 }
    else none
  | .otherRUnlock => if 0 < s.readers then some { s with readers := s.readers - 1 } else none
  | .otherLock =>
    if s.Writable ∧ W.stand s.place ≠ .holds then some { s with writing := true } else none
  | .otherUnlock => if s.writing then some { s with writing := false } else none

/-- **Deadlock**: the closer waits for the worker with the lock in hand, and the worker wants the
    lock. -/
def Closing.Deadlocked (s : Closing W) : Prop :=
  s.closer = .waiting ∧ W.stand s.place = .wants

instance (s : Closing W) : Decidable s.Deadlocked := inferInstanceAs (Decidable (_ ∧ _))

/-- The wait does not begin while the worker wants the lock, and the worker does not go for it
    during the wait. -/
def ClosingOp.Avoids (s : Closing W) : ClosingOp W → Prop
  | .move m => s.closer = .waiting → W.asks m = false
  | .wait => W.stand s.place ≠ .wants
  | _ => True

/-- A move that is made leads where it says. -/
theorem ClosingOp.step_move {s s' : Closing W} {m : W.Move} (h : (ClosingOp.move m).step s = some s') :
    ∃ p, W.next s.closed s.place m = some p ∧ s.Admits p ∧ s' = { s with place := p } := by
  rw [ClosingOp.step] at h
  rcases hp : W.next s.closed s.place m with _ | p
  · rw [hp] at h
    cases h
  · rw [hp] at h
    dsimp only at h
    split_ifs at h with hadmits
    cases h
    exact ⟨p, rfl, hadmits, rfl⟩

/-- **Nobody ever leaves the deadlock.** -/
theorem Closing.Deadlocked.step {s s' : Closing W} (h : s.Deadlocked) {op : ClosingOp W}
    (hstep : op.step s = some s') : s'.Deadlocked := by
  obtain ⟨hwaiting, hwants⟩ := h
  cases op with
  | move m =>
    -- the move would need the lock, which the closer holds
    obtain ⟨p, hp, hadmits, -⟩ := ClosingOp.step_move hstep
    have hfree := hadmits (W.takes hp hwants) hwants
    have hreadable : s.Readable := by
      split_ifs at hfree
      · exact hfree.1
      · exact hfree
    exact absurd hwaiting hreadable.2.1
  | lock =>
    rw [ClosingOp.step, if_neg (fun h => by rw [hwaiting] at h; cases h.1)] at hstep
    cases hstep
  | release =>
    rw [ClosingOp.step, if_neg (fun h => by rw [hwaiting] at h; cases h)] at hstep
    cases hstep
  | wait =>
    rw [ClosingOp.step, if_neg (fun h => by rw [hwaiting] at h; cases h)] at hstep
    cases hstep
  | finish =>
    rw [ClosingOp.step, if_neg (fun h => by rw [hwants] at h; cases h.2)] at hstep
    cases hstep
  | otherRLock | otherRUnlock | otherLock | otherUnlock =>
    rw [ClosingOp.step] at hstep
    split_ifs at hstep
    cases hstep
    exact ⟨hwaiting, hwants⟩

/-- The deadlock lasts. -/
theorem Closing.Deadlocked.run {s s' : Closing W} (h : s.Deadlocked) {ops : List (ClosingOp W)}
    (hrun : ops.foldlM ClosingOp.step s = some s') : s'.Deadlocked :=
  foldlM_inv (fun _ _ _ hs hstep => hs.step hstep) h hrun

/-- One step leads to the deadlock exactly if it does not avoid it. -/
theorem ClosingOp.avoids_iff {s s' : Closing W} {op : ClosingOp W} (h : ¬ s.Deadlocked)
    (hstep : op.step s = some s') : ¬ s'.Deadlocked ↔ op.Avoids s := by
  cases op with
  | move m =>
    obtain ⟨p, hp, -, rfl⟩ := ClosingOp.step_move hstep
    rw [Closing.Deadlocked, ClosingOp.Avoids, not_and, W.asks_iff hp, Bool.not_eq_true]
  | wait =>
    rw [ClosingOp.step] at hstep
    split_ifs at hstep
    cases hstep
    rw [Closing.Deadlocked, ClosingOp.Avoids, not_and, imp_iff_right rfl]
  | lock | release | finish =>
    rw [ClosingOp.step] at hstep
    split_ifs at hstep
    cases hstep
    exact iff_of_true (fun hdead => by cases hdead.1) trivial
  | otherRLock | otherRUnlock | otherLock | otherUnlock =>
    rw [ClosingOp.step] at hstep
    split_ifs at hstep
    cases hstep
    exact iff_of_true h trivial

/-- **A run is free of deadlock exactly if each of its steps avoids it.** -/
theorem never_deadlocked_iff (ops : List (ClosingOp W)) :
    (∀ k s, (ops.take k).foldlM ClosingOp.step (Closing.start W) = some s → ¬ s.Deadlocked)
      ↔ Along ClosingOp.step (fun s op => (ClosingOp.step s op).isSome → op.Avoids s)
          (Closing.start W) ops := by
  refine foldlM_take_inv_iff (J := fun _ => True) (fun _ _ _ _ _ => trivial) ?_ ops trivial ?_
  · exact fun s op s' _ h hstep => ClosingOp.avoids_iff h hstep
  · exact fun h => by cases h.1

end InfluxCluster.Lib
