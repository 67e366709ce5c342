/-
  Go's `sort.Search(n, f)`: the halving loop, for ANY predicate.

  The loop keeps `i ≤ j` and looks at `h = (i + j) / 2`: if `f h` it goes on with `[i, h)`, else with
  `[h + 1, j)`; at the end `i = j` is returned.  For a predicate that stays true once it is that is
  the first place where it is true.  For other predicates the loop is still worth something:

  * once it has seen a place where `f` is true it ends at such a place (`go_of_hit`);
  * until then it goes to the RIGHT only, and so the places it looks at are known beforehand.  They
    are the `spine` of `n`: the middle, the middle of what is right of it, and so on.

  So the place that is returned is below `n` and `f` is true there exactly if `f` is true somewhere on
  the spine (`search_hit_iff`).  The loop is by recursion on fuel, of which `n` is enough.
-/
import Mathlib.Data.List.Basic

namespace InfluxCluster.Lib.SortSearch

/-- The loop. -/
def go (f : Nat → Bool) : Nat → Nat → Nat → Nat
  | 0, i, _ => i
  | fuel + 1, i, j =>
    if i < j then
      let h := (i + j) / 2
      if !f h then go f fuel (h + 1) j else go f fuel i h
    else i

/-- `sort.Search`. -/
def search (n : Nat) (f : Nat → Bool) : Nat := go f n 0 n

/-- The places that the loop looks at from `i` on as long as the predicate is false there. -/
def spineFrom (n : Nat) : Nat → Nat → List Nat
  | 0, _ => []
  | fuel + 1, i => if i < n then (i + n) / 2 :: spineFrom n fuel ((i + n) / 2 + 1) else []

def spine (n : Nat) : List Nat := spineFrom n n 0

variable {f : Nat → Bool}

theorem go_of_true {fuel i j : Nat} (hlt : i < j) (hh : f ((i + j) / 2) = true) :
    go f (fuel + 1) i j = go f fuel i ((i + j) / 2) := by
  simp [go, hlt, hh]

theorem go_of_false {fuel i j : Nat} (hlt : i < j) (hh : f ((i + j) / 2) = false) :
    go f (fuel + 1) i j = go f fuel ((i + j) / 2 + 1) j := by
  simp [go, hlt, hh]

/-- The loop ends when the interval is empty. -/
theorem go_of_eq {fuel i : Nat} : go f fuel i i = i := by
  cases fuel with
  | zero => rfl
  | succ fuel => simp [go]

theorem go_le {fuel i j : Nat} (hij : i ≤ j) : go f fuel i j ≤ j := by
  induction fuel generalizing i j with
  | zero => exact hij
  | succ fuel ih =>
    rcases Nat.eq_or_lt_of_le hij with rfl | hlt
    · exact Nat.le_of_eq go_of_eq
    · cases hh : f ((i + j) / 2) with
      | false =>
        rw [go_of_false hlt hh]
        exact ih (by omega)
      | true =>
        rw [go_of_true hlt hh]
        have hle : go f fuel i ((i + j) / 2) ≤ (i + j) / 2 := ih (by omega)
        omega

/-- **A loop that has seen a place where the predicate is true ends at one.** -/
theorem go_of_hit {fuel i j : Nat} (hij : i ≤ j) (hfuel : j - i ≤ fuel) (hj : f j = true) :
    f (go f fuel i j) = true := by
  induction fuel generalizing i j with
  | zero =>
    have he : i = j := by omega
    rw [he, go_of_eq]
    exact hj
  | succ fuel ih =>
    rcases Nat.eq_or_lt_of_le hij with rfl | hlt
    · rw [go_of_eq]
      exact hj
    · cases hh : f ((i + j) / 2) with
      | false =>
        rw [go_of_false hlt hh]
        exact ih (by omega) (by omega) hj
      | true =>
        rw [go_of_true hlt hh]
        exact ih (by omega) (by omega) hh

/-- Until it has seen one it is on the spine. -/
theorem go_hit_iff {fuel i n : Nat} (hin : i ≤ n) (hfuel : n - i ≤ fuel) :
    (go f fuel i n < n ∧ f (go f fuel i n) = true) ↔ ∃ h ∈ spineFrom n fuel i, f h = true := by
  induction fuel generalizing i with
  | zero =>
    have he : i = n := by omega
    rw [he, go_of_eq]
    simp [spineFrom]
  | succ fuel ih =>
    rcases Nat.eq_or_lt_of_le hin with rfl | hlt
    · rw [go_of_eq]
      simp [spineFrom]
    · rw [spineFrom, if_pos hlt]
      cases hh : f ((i + n) / 2) with
      | false =>
        rw [go_of_false hlt hh, ih (by omega) (by omega), List.exists_mem_cons_iff, hh]
        exact ⟨Or.inr, fun h => h.resolve_left Bool.false_ne_true⟩
      | true =>
        -- the first hit: the loop stays below it, and ends at a hit
        rw [go_of_true hlt hh]
        have hle : go f fuel i ((i + n) / 2) ≤ (i + n) / 2 := go_le (by omega)
        have hend : f (go f fuel i ((i + n) / 2)) = true := go_of_hit (by omega) (by omega) hh
        refine iff_of_true ⟨?_, hend⟩ ⟨_, List.mem_cons_self, hh⟩
        omega

/-- **What `sort.Search` finds**, whatever the predicate. -/
theorem search_hit_iff (n : Nat) :
    (search n f < n ∧ f (search n f) = true) ↔ ∃ h ∈ spine n, f h = true :=
  go_hit_iff (Nat.zero_le n) (Nat.sub_le n 0)

example : spine 7 = [3, 5, 6] := by decide

end InfluxCluster.Lib.SortSearch
