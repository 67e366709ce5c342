/-
  Programs with a state and an error: the rules their proofs use.

  Imperative code that returns an error leaves behind whatever it changed before.  `EStateM ε σ`
  is exactly that: both results, `ok a s` and `error e s`, carry a state.  Two kinds of rules are
  stated for it:

  * EXECUTION: `bind_ok` and `bind_error` run a sequence one call further, from an equation for the
    first call; `ok_of_bind` goes back from the result of a sequence to its calls.  With one
    equation per function (what it does when its calls succeed) a whole body is evaluated by
    rewriting, and no caller ever unfolds a callee.
  * TRIPLES: `Triple P x Q E` says what holds after `x` whatever its outcome, and `Triple.bind`
    composes.  This is for the runs in which any call may fail, where there is no equation to
    rewrite with: an invariant that every call `Keeps` is kept by the sequence.
-/
import Mathlib.Tactic.Basic

namespace InfluxCluster.Lib

universe u

variable {ε σ α β : Type u}

/-! ## Execution -/

theorem bind_ok {x : EStateM ε σ α} {f : α → EStateM ε σ β} {s s' : σ} {a : α}
    (h : x s = .ok a s') : (x >>= f) s = f a s' := by
  show (match x s with | .ok a s => f a s | .error e s => .error e s) = _
  rw [h]

theorem bind_error {x : EStateM ε σ α} {f : α → EStateM ε σ β} {s s' : σ} {e : ε}
    (h : x s = .error e s') : (x >>= f) s = .error e s' := by
  show (match x s with | .ok a s => f a s | .error e s => .error e s) = _
  rw [h]

/-- A sequence that returned has returned from its first call. -/
theorem ok_of_bind {x : EStateM ε σ α} {f : α → EStateM ε σ β} {s s' : σ} {b : β}
    (h : (x >>= f) s = .ok b s') : ∃ a t, x s = .ok a t ∧ f a t = .ok b s' := by
  rcases hx : x s with ⟨a, t⟩ | ⟨e, t⟩
  · rw [bind_ok hx] at h
    exact ⟨a, t, rfl, h⟩
  · rw [bind_error hx] at h
    cases h

/-- The state a program leaves, whatever its result. -/
def final : EStateM.Result ε σ α → σ
  | .ok _ s => s
  | .error _ s => s

@[simp] theorem final_ok (a : α) (s : σ) : final (.ok a s : EStateM.Result ε σ α) = s := rfl

@[simp] theorem final_error (e : ε) (s : σ) : final (.error e s : EStateM.Result ε σ α) = s := rfl

/-- What a program returns, if it does not fail. -/
def returned : EStateM.Result ε σ α → Option α
  | .ok a _ => some a
  | .error _ _ => none

/-- The error of a program, if it fails. -/
def failure : EStateM.Result ε σ α → Option ε
  | .ok _ _ => none
  | .error e _ => some e

/-- How a program ends: what it returns, or its error. -/
def outcome : EStateM.Result ε σ α → Except ε α
  | .ok a _ => .ok a
  | .error e _ => .error e

theorem eq_ok_of_returned {r : EStateM.Result ε σ α} {a : α} (h : returned r = some a) :
    r = .ok a (final r) := by
  cases r with
  | ok b s => cases h; rfl
  | error e s => cases h

theorem eq_error_of_failure {r : EStateM.Result ε σ α} {e : ε} (h : failure r = some e) :
    r = .error e (final r) := by
  cases r with
  | ok b s => cases h
  | error e s => cases h; rfl

/-! ## Triples -/

/-- From a state with `P`, a normal return has `Q` and an error has `E`. -/
def Triple (P : σ → Prop) (x : EStateM ε σ α) (Q : α → σ → Prop) (E : ε → σ → Prop) : Prop :=
  ∀ s, P s → match x s with
    | .ok a s' => Q a s'
    | .error e s' => E e s'

/-- `x` keeps the invariant `I`, whether it succeeds or not. -/
def Keeps (I : σ → Prop) (x : EStateM ε σ α) : Prop :=
  Triple I x (fun _ => I) (fun _ => I)

/-- What is kept, whichever way the run ends. -/
theorem keeps_iff {I : σ → Prop} {x : EStateM ε σ α} :
    Keeps I x ↔ ∀ s, I s → I (final (x s)) := by
  refine forall_congr' fun s => imp_congr_right fun _ => ?_
  cases x s with
  | ok a s' => exact Iff.rfl
  | error e s' => exact Iff.rfl

theorem Keeps.ok {I : σ → Prop} {x : EStateM ε σ α} (hx : Keeps I x) {s s' : σ} {a : α} (hs : I s)
    (h : x s = .ok a s') : I s' := by
  have hk := hx s hs
  rw [h] at hk
  exact hk

theorem keeps_pure {I : σ → Prop} (a : α) : Keeps I (pure a : EStateM ε σ α) := fun _ hs => hs

theorem keeps_throw {I : σ → Prop} (e : ε) : Keeps I (throw e : EStateM ε σ α) := fun _ hs => hs

/-- What comes behind an error is not run. -/
theorem keeps_throw_bind {I : σ → Prop} (e : ε) (f : α → EStateM ε σ β) :
    Keeps I (MonadExcept.throw e >>= f) := fun _ hs => hs

/-- An invariant that is kept, and more than an error has to leave. -/
theorem Keeps.triple {I : σ → Prop} {E : ε → σ → Prop} {x : EStateM ε σ α} (h : Keeps I x)
    (hE : ∀ e s, I s → E e s) : Triple I x (fun _ => I) E := by
  intro s hs
  have hk := h s hs
  cases hx : x s with
  | ok a s' =>
    rw [hx] at hk
    exact hk
  | error e s' =>
    rw [hx] at hk
    exact hE e s' hk

/-- One after the other: what the first returns with is what the second starts from. -/
theorem Triple.bind {P : σ → Prop} {x : EStateM ε σ α} {R : α → σ → Prop}
    {f : α → EStateM ε σ β} {Q : β → σ → Prop} {E : ε → σ → Prop}
    (hx : Triple P x R E) (hf : ∀ a, Triple (R a) (f a) Q E) : Triple P (x >>= f) Q E := by
  intro s hs
  have h := hx s hs
  cases hr : x s with
  | ok a s' =>
    rw [hr] at h
    rw [bind_ok hr]
    exact hf a s' h
  | error e s' =>
    rw [hr] at h
    rw [bind_error hr]
    exact h

/-- A part of the precondition that does not speak of the state is a hypothesis. -/
theorem Triple.of_and {p : Prop} {P : σ → Prop} {x : EStateM ε σ α} {Q : α → σ → Prop}
    {E : ε → σ → Prop} (h : p → Triple P x Q E) : Triple (fun s => p ∧ P s) x Q E :=
  fun s hs => h hs.1 s hs.2

end InfluxCluster.Lib
