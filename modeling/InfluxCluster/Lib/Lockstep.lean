/-
  Runs of a machine, and what holds all along them.

  A machine is a step function `σ → ι → Option σ`; `none` means that it stopped for good, and
  `List.foldlM` is its run.  `Along f Q s w` says that `Q` holds at every step that `f` takes on the
  inputs `w`.  A condition that is EXACT at one step is exact for whole runs:

  * if `Q` says when two machines do the same at one step, then `Along f Q` says when they are in
    the same state after every input (`foldlM_take_eq_iff`);
  * if `Q` says when one step keeps a property, then `Along` says when it holds after every input
    (`foldlM_take_inv_iff`).  An invariant that every step keeps may be used at each of them.

  What every step keeps is there after every run (`foldlM_inv`), also if it speaks of the run
  itself (`foldlM_inv_run`).

  A machine that never stops runs by `List.foldl`, and there the condition is on the inputs by
  position (`foldl_take_inv_iff`).  Two conditions that come to the same wherever an invariant holds
  come to the same for whole runs, if each step that meets one of them keeps it
  (`throughout_iff_of_inv`).
-/
import Mathlib.Tactic.Basic

namespace InfluxCluster.Lib

variable {σ ι : Type}

/-- `Q` holds of every state of the run of `f` on `w`, with the input that it is given there. -/
def Along (f : σ → ι → Option σ) (Q : σ → ι → Prop) : σ → List ι → Prop
  | _, [] => True
  | s, i :: w => Q s i ∧ ∀ s', f s i = some s' → Along f Q s' w

instance Along.decidable {f : σ → ι → Option σ} {Q : σ → ι → Prop} [∀ s i, Decidable (Q s i)] :
    (s : σ) → (w : List ι) → Decidable (Along f Q s w)
  | _, [] => isTrue trivial
  | s, i :: w =>
    match h : f s i with
    | none => decidable_of_iff (Q s i) ⟨fun hq => ⟨hq, fun s' hs' => by cases h ▸ hs'⟩, And.left⟩
    | some t =>
      have := Along.decidable (f := f) (Q := Q) t w
      decidable_of_iff (Q s i ∧ Along f Q t w)
        ⟨fun hq => ⟨hq.1, fun s' hs' => by cases h ▸ hs'; exact hq.2⟩, fun hq => ⟨hq.1, hq.2 t h⟩⟩

/-- **Machines that do the same at a step exactly when `Q` holds are in the same state all along
    exactly when `Q` holds at every step.** -/
theorem foldlM_take_eq_iff {f g : σ → ι → Option σ} {Q : σ → ι → Prop}
    (hQ : ∀ s i, f s i = g s i ↔ Q s i) (w : List ι) (s : σ) :
    (∀ k, (w.take k).foldlM f s = (w.take k).foldlM g s) ↔ Along f Q s w := by
  induction w generalizing s with
  | nil => exact ⟨fun _ => trivial, fun _ k => by rw [List.take_nil]; rfl⟩
  | cons i w ih =>
    constructor
    · intro h
      have hstep : f s i = g s i := by
        have h1 := h 1
        rw [List.take_succ_cons, List.take_zero, List.foldlM_cons, List.foldlM_cons] at h1
        simpa using h1
      refine ⟨(hQ s i).mp hstep, fun s' hs' => (ih s').mp fun k => ?_⟩
      have hk := h (k + 1)
      rw [List.take_succ_cons, List.foldlM_cons, List.foldlM_cons, ← hstep, hs'] at hk
      exact hk
    · rintro ⟨hq, hrest⟩ k
      have hstep : f s i = g s i := (hQ s i).mpr hq
      rcases k with _ | k
      · rfl
      · rw [List.take_succ_cons, List.foldlM_cons, List.foldlM_cons, ← hstep]
        -- a machine that has stopped does not go on; otherwise both go on from the same state
        rcases hs' : f s i with _ | s'
        · rfl
        · exact (ih s').mpr (hrest s' hs') k

/-- What every step with `Q` keeps holds after every run with `Q` all along. -/
theorem Along.inv {f : σ → ι → Option σ} {Q : σ → ι → Prop} {J : σ → Prop}
    (hJ : ∀ s i s', J s → Q s i → f s i = some s' → J s') {w : List ι} {s s' : σ}
    (hQ : Along f Q s w) (hs : J s) (h : w.foldlM f s = some s') : J s' := by
  induction w generalizing s with
  | nil =>
    cases h
    exact hs
  | cons i w ih =>
    obtain ⟨hq, hrest⟩ := hQ
    rw [List.foldlM_cons] at h
    rcases hstep : f s i with _ | t
    · rw [hstep] at h
      cases h
    · rw [hstep] at h
      exact ih (hrest t hstep) (hJ s i t hs hq hstep) h

/-- The first part of a run has `Q` all along too. -/
theorem Along.take {f : σ → ι → Option σ} {Q : σ → ι → Prop} {w : List ι} {s : σ}
    (hQ : Along f Q s w) (k : Nat) : Along f Q s (w.take k) := by
  induction w generalizing s k with
  | nil =>
    rw [List.take_nil]
    trivial
  | cons i w ih =>
    rcases k with _ | k
    · trivial
    · exact ⟨hQ.1, fun s' hs' => ih (hQ.2 s' hs') k⟩

theorem along_of_forall {f : σ → ι → Option σ} {Q : σ → ι → Prop} (hQ : ∀ s i, Q s i) (w : List ι)
    (s : σ) : Along f Q s w := by
  induction w generalizing s with
  | nil => trivial
  | cons i w ih => exact ⟨hQ s i, fun s' _ => ih s'⟩

/-- **What every step keeps holds after every run.** -/
theorem foldlM_inv {f : σ → ι → Option σ} {J : σ → Prop}
    (hJ : ∀ s i s', J s → f s i = some s' → J s') {w : List ι} {s s' : σ} (hs : J s)
    (h : w.foldlM f s = some s') : J s' :=
  (along_of_forall (Q := fun _ _ => True) (fun _ _ => trivial) w s).inv
    (fun s i s' hs _ hstep => hJ s i s' hs hstep) hs h

/-- The same for what speaks of the run so far. -/
theorem foldlM_inv_run {f : σ → ι → Option σ} {s₀ : σ} {J : List ι → σ → Prop} (h₀ : J [] s₀)
    (hJ : ∀ w s i s', w.foldlM f s₀ = some s → J w s → f s i = some s' → J (w ++ [i]) s')
    (w : List ι) (s : σ) (h : w.foldlM f s₀ = some s) : J w s := by
  -- the induction is on what is still to come after `v`
  have hrest : ∀ v t, v.foldlM f s₀ = some t → J v t → w.foldlM f t = some s → J (v ++ w) s := by
    clear h
    induction w with
    | nil =>
      intro v t _ hv h
      cases h
      rw [List.append_nil]
      exact hv
    | cons i w ih =>
      intro v t hvt hv h
      rw [List.foldlM_cons] at h
      obtain ⟨u, hu, hrest⟩ := Option.bind_eq_some_iff.mp h
      rw [List.append_cons]
      refine ih (v ++ [i]) u ?_ (hJ v t i u hvt hv hu) hrest
      rw [List.foldlM_append, hvt]
      simp [hu]
  exact hrest [] s₀ rfl h₀ h

/-- What every step of a run must be, by what holds where it is taken. -/
theorem Along.forall_mem {f : σ → ι → Option σ} {Q : σ → ι → Prop} {J : σ → Prop} {P : ι → Prop}
    (hJ : ∀ s i s', J s → Q s i → f s i = some s' → J s' ∧ P i) {w : List ι} {s s' : σ}
    (hQ : Along f Q s w) (hs : J s) (h : w.foldlM f s = some s') : ∀ i ∈ w, P i := by
  induction w generalizing s with
  | nil => exact fun i hi => absurd hi List.not_mem_nil
  | cons i w ih =>
    rw [List.foldlM_cons] at h
    rcases hstep : f s i with _ | t
    · rw [hstep] at h
      cases h
    · rw [hstep] at h
      obtain ⟨ht, hi⟩ := hJ s i t hs hQ.1 hstep
      exact List.forall_mem_cons.mpr ⟨hi, ih (hQ.2 t hstep) ht h⟩

/-- A condition on the steps themselves beside one on the states. -/
theorem Along.and_mem {f : σ → ι → Option σ} {Q : σ → ι → Prop} {P : ι → Prop} {w : List ι} {s : σ}
    (hQ : Along f Q s w) (hP : ∀ i ∈ w, P i) : Along f (fun s i => Q s i ∧ P i) s w := by
  induction w generalizing s with
  | nil => trivial
  | cons i w ih =>
    obtain ⟨hi, hrest⟩ := List.forall_mem_cons.mp hP
    exact ⟨⟨hQ.1, hi⟩, fun s' hs' => ih (hQ.2 s' hs') hrest⟩

/-- Two conditions on the states. -/
theorem Along.and {f : σ → ι → Option σ} {P Q : σ → ι → Prop} {w : List ι} {s : σ}
    (hP : Along f P s w) (hQ : Along f Q s w) : Along f (fun s i => P s i ∧ Q s i) s w := by
  induction w generalizing s with
  | nil => trivial
  | cons i w ih => exact ⟨⟨hP.1, hQ.1⟩, fun s' hs' => ih (hP.2 s' hs') (hQ.2 s' hs')⟩

/-- What follows from a condition where an invariant holds that steps under the condition keep. -/
theorem Along.imp {f : σ → ι → Option σ} {P Q : σ → ι → Prop} {J : σ → Prop}
    (hJ : ∀ s i s', J s → P s i → f s i = some s' → J s') (hQ : ∀ s i, J s → P s i → Q s i)
    {w : List ι} {s : σ} (hP : Along f P s w) (hs : J s) : Along f Q s w := by
  induction w generalizing s with
  | nil => trivial
  | cons i w ih =>
    exact ⟨hQ s i hs hP.1, fun s' hs' => ih (hP.2 s' hs') (hJ s i s' hs hP.1 hs')⟩

/-- What every step of a kind keeps holds after every run of such steps. -/
theorem foldlM_inv_mem {f : σ → ι → Option σ} {J : σ → Prop} {P : ι → Prop}
    (hJ : ∀ s i s', J s → P i → f s i = some s' → J s') {w : List ι} {s s' : σ}
    (hP : ∀ i ∈ w, P i) (hs : J s) (h : w.foldlM f s = some s') : J s' :=
  ((along_of_forall (Q := fun _ _ => True) (fun _ _ => trivial) w s).and_mem hP).inv
    (fun s i s' hs hi hstep => hJ s i s' hs hi.2 hstep) hs h

/-- **A run of steps that all use up work is no longer than the work.** -/
theorem length_add_work_le {f : σ → ι → Option σ} {J : σ → Prop} {P : ι → Prop} {work : σ → Nat}
    (hJ : ∀ s i s', J s → P i → f s i = some s' → J s' ∧ work s' < work s) {w : List ι} {s s' : σ}
    (hP : ∀ i ∈ w, P i) (hs : J s) (h : w.foldlM f s = some s') :
    w.length + work s' ≤ work s := by
  induction w generalizing s with
  | nil =>
    cases h
    exact Nat.le_of_eq (Nat.zero_add _)
  | cons i w ih =>
    obtain ⟨hi, hrest⟩ := List.forall_mem_cons.mp hP
    rw [List.foldlM_cons] at h
    rcases hstep : f s i with _ | t
    · rw [hstep] at h
      cases h
    · rw [hstep] at h
      obtain ⟨ht, hless⟩ := hJ s i t hs hi hstep
      have hlater := ih hrest ht h
      rw [List.length_cons]
      omega

theorem along_congr {f : σ → ι → Option σ} {Q R : σ → ι → Prop} (h : ∀ s i, Q s i ↔ R s i)
    (w : List ι) (s : σ) : Along f Q s w ↔ Along f R s w := by
  induction w generalizing s with
  | nil => exact Iff.rfl
  | cons i w ih => exact and_congr (h s i) (forall₂_congr fun s' _ => ih s')

/-- Other steps may come in between, if they leave the work as it is. -/
theorem countP_add_work_le {f : σ → ι → Option σ} {J : σ → Prop} {P : ι → Prop} [DecidablePred P]
    {work : σ → Nat} (hJ : ∀ s i s', J s → f s i = some s' →
      J s' ∧ (if P i then 1 else 0) + work s' ≤ work s) {w : List ι} {s s' : σ} (hs : J s)
    (h : w.foldlM f s = some s') : w.countP (fun i => P i) + work s' ≤ work s := by
  induction w generalizing s with
  | nil =>
    cases h
    simp
  | cons i w ih =>
    rw [List.foldlM_cons] at h
    obtain ⟨t, ht, hrest⟩ := Option.bind_eq_some_iff.mp h
    obtain ⟨hJt, hwork⟩ := hJ s i t hs ht
    have := ih hJt hrest
    rw [List.countP_cons]
    by_cases hi : P i <;> simp [hi] at hwork ⊢ <;> omega

/-- **A property that a step keeps exactly when `Q` holds is there all along exactly when `Q` holds
    at every step.** -/
theorem foldlM_take_inv_iff {f : σ → ι → Option σ} {J I : σ → Prop} {Q : σ → ι → Prop}
    (hJ : ∀ s i s', J s → f s i = some s' → J s')
    (hQ : ∀ s i s', J s → I s → f s i = some s' → (I s' ↔ Q s i)) (w : List ι) {s : σ}
    (hj : J s) (hi : I s) :
    (∀ k s', (w.take k).foldlM f s = some s' → I s')
      ↔ Along f (fun s i => (f s i).isSome → Q s i) s w := by
  induction w generalizing s with
  | nil =>
    refine ⟨fun _ => trivial, fun _ k s' h => ?_⟩
    rw [List.take_nil] at h
    cases h
    exact hi
  | cons i w ih =>
    constructor
    · intro h
      have hstep : ∀ t, f s i = some t → I t := by
        intro t ht
        refine h 1 t ?_
        rw [List.take_succ_cons, List.take_zero, List.foldlM_cons, ht]
        rfl
      refine ⟨fun hsome => ?_, fun t ht => ?_⟩
      · obtain ⟨t, ht⟩ := Option.isSome_iff_exists.mp hsome
        exact (hQ s i t hj hi ht).mp (hstep t ht)
      · refine (ih (hJ s i t hj ht) (hstep t ht)).mp fun k s' hk => ?_
        refine h (k + 1) s' ?_
        rw [List.take_succ_cons, List.foldlM_cons, ht]
        exact hk
    · rintro ⟨hq, hrest⟩ k s' hk
      rcases k with _ | k
      · cases hk
        exact hi
      · rw [List.take_succ_cons, List.foldlM_cons] at hk
        -- the machine stops here, or the property holds of the next state and the rest follows
        rcases ht : f s i with _ | t
        · rw [ht] at hk
          cases hk
        · rw [ht] at hk
          have hit : I t := (hQ s i t hj hi ht).mpr (hq (by rw [ht]; rfl))
          exact (ih (hJ s i t hj ht) hit).mpr (hrest t ht) k s' hk

/-- The same for a machine that never stops. -/
theorem foldl_take_inv_iff {f : σ → ι → σ} {I : σ → Prop} {Q : σ → ι → Prop}
    (hQ : ∀ s i, I s → (I (f s i) ↔ Q s i)) (w : List ι) {s : σ} (hi : I s) :
    (∀ k, I ((w.take k).foldl f s))
      ↔ ∀ k i, w[k]? = some i → Q ((w.take k).foldl f s) i := by
  have hsucc : ∀ k i, w[k]? = some i →
      (w.take (k + 1)).foldl f s = f ((w.take k).foldl f s) i := by
    intro k i hk
    rw [List.take_add_one, hk, List.foldl_append]
    rfl
  constructor
  · intro h k i hk
    have hnext := h (k + 1)
    rw [hsucc k i hk] at hnext
    exact (hQ _ i (h k)).mp hnext
  · intro h k
    induction k with
    | zero => exact hi
    | succ k ih =>
      rcases hk : w[k]? with _ | i
      · rw [List.take_add_one, hk, Option.toList_none, List.append_nil]
        exact ih
      · rw [hsucc k i hk]
        exact (hQ _ i ih).mpr (h k i hk)

section Total

variable {f : σ → ι → σ} {J : σ → Prop} {F Q R : σ → ι → Prop}

/-- `Q` holds of every input of `w`, in the state in which the run finds it. -/
def Throughout (f : σ → ι → σ) (Q : σ → ι → Prop) (s : σ) (w : List ι) : Prop :=
  ∀ k i, w[k]? = some i → Q ((w.take k).foldl f s) i

theorem throughout_cons {s : σ} {i : ι} {w : List ι} :
    Throughout f Q s (i :: w) ↔ Q s i ∧ Throughout f Q (f s i) w := by
  constructor
  · intro h
    exact ⟨h 0 i rfl, fun k j hk => h (k + 1) j hk⟩
  · rintro ⟨hi, hw⟩ k j hk
    rcases k with _ | k
    · cases hk
      exact hi
    · exact hw k j hk

instance Throughout.decidable [∀ s i, Decidable (Q s i)] :
    (s : σ) → (w : List ι) → Decidable (Throughout f Q s w)
  | _, [] => isTrue fun k i hk => by cases hk
  | s, i :: w =>
    have := Throughout.decidable (f s i) w
    decidable_of_iff (Q s i ∧ Throughout f Q (f s i) w) throughout_cons.symm

/-- **Conditions that say the same under an invariant say the same of whole runs.** -/
theorem throughout_iff_of_inv (hJ : ∀ s i, J s → F s i → R s i → J (f s i))
    (hQ : ∀ s i, J s → F s i → (Q s i ↔ R s i)) {w : List ι} {s : σ} (hs : J s)
    (hF : Throughout f F s w) : Throughout f Q s w ↔ Throughout f R s w := by
  induction w generalizing s with
  | nil => exact ⟨fun _ k i hk => (by cases hk), fun _ k i hk => (by cases hk)⟩
  | cons i w ih =>
    obtain ⟨hi, hw⟩ := throughout_cons.mp hF
    rw [throughout_cons, throughout_cons, hQ s i hs hi]
    -- the invariant reaches the rest of the run only through a step that meets the condition
    exact and_congr_right fun hr => ih (hJ s i hs hi hr) hw

end Total

end InfluxCluster.Lib
