/-
  BUCKETS: a list for every key, for components that collect what they are given by a key.

  A value goes to the end of the list of its key, and a key that has none gets one (`put`).  After a
  list of values has been put (`fill`) the list of a key is those values that have the key, in the
  order they came in, and all lists together are the values.  So nothing is lost, nothing is there
  twice, and nothing has overtaken another value of its key.

  Of a fold that only collects keys there is one more rule: it has those it began with, and those of
  the list (`foldl_has_iff`).
-/
import Mathlib.Data.List.AList

namespace InfluxCluster.Lib

/-- A list for every key that has one. -/
abbrev Buckets (κ α : Type) : Type := AList fun _ : κ => List α

namespace Buckets

variable {κ α : Type} [DecidableEq κ]

/-- The list of the key. -/
def bucket (b : Buckets κ α) (k : κ) : List α := (b.lookup k).getD []

/-- All lists, one after the other. -/
def values (b : Buckets κ α) : List α := b.entries.flatMap Sigma.snd

/-- The value goes to the end of the list of the key. -/
def put (b : Buckets κ α) (k : κ) (a : α) : Buckets κ α := b.insert k (b.bucket k ++ [a])

/-- Each value goes to the end of the list of its key. -/
def fill (key : α → κ) (l : List α) (b : Buckets κ α) : Buckets κ α :=
  l.foldl (fun b a => b.put (key a) a) b

variable {b : Buckets κ α} {key : α → κ} {k k' : κ} {a : α} {l : List α}

theorem bucket_of_lookup (h : b.lookup k = some l) : b.bucket k = l := by
  rw [bucket, h]
  rfl

theorem lookup_of_mem_bucket (h : a ∈ b.bucket k) : b.lookup k = some (b.bucket k) := by
  rw [bucket] at h ⊢
  rcases hl : b.lookup k with _ | l
  · rw [hl] at h
    cases h
  · rfl

theorem bucket_empty : (∅ : Buckets κ α).bucket k = [] := by
  rw [bucket, AList.lookup_empty]
  rfl

/-! ## The list of a key -/

theorem bucket_put : (b.put k a).bucket k = b.bucket k ++ [a] :=
  bucket_of_lookup (AList.lookup_insert b)

theorem bucket_put_of_ne (h : k' ≠ k) : (b.put k a).bucket k' = b.bucket k' := by
  rw [bucket, put, AList.lookup_insert_ne h, bucket]

/-- **The list of a key is the values that have it, in their order.** -/
theorem bucket_fill (l : List α) :
    ∀ b : Buckets κ α, (fill key l b).bucket k = b.bucket k ++ l.filter fun a => key a = k := by
  induction l with
  | nil => exact fun b => (List.append_nil _).symm
  | cons a l ih =>
    intro b
    show (fill key l (b.put (key a) a)).bucket k = _
    rw [ih]
    by_cases h : key a = k
    · rw [h, bucket_put, List.filter_cons_of_pos (by simpa using h), List.append_assoc]
      rfl
    · rw [bucket_put_of_ne (Ne.symm h), List.filter_cons_of_neg (by simpa using h)]

/-! ## All lists together -/

/-- The list of a key, and the others. -/
theorem flatMap_kerase_perm (k : κ) (entries : List (Sigma fun _ : κ => List α)) :
    (entries.flatMap Sigma.snd).Perm
      ((entries.dlookup k).getD [] ++ (entries.kerase k).flatMap Sigma.snd) := by
  induction entries with
  | nil => exact .nil
  | cons e entries ih =>
    obtain ⟨k', l'⟩ := e
    by_cases h : k = k'
    · subst h
      have herase : List.kerase k (⟨k, l'⟩ :: entries) = entries := List.kerase_cons_eq rfl
      rw [List.dlookup_cons_eq, herase]
      exact .refl _
    · have herase : List.kerase k (⟨k', l'⟩ :: entries) = ⟨k', l'⟩ :: entries.kerase k :=
        List.kerase_cons_ne h
      rw [List.dlookup_cons_ne _ _ h, herase]
      -- the lists before that of the key are those of other keys
      show (l' ++ entries.flatMap Sigma.snd).Perm _
      refine (ih.append_left l').trans ?_
      rw [← List.append_assoc, List.flatMap_cons, ← List.append_assoc]
      exact List.perm_append_comm.append_right _

theorem values_put : (b.put k a).values.Perm (b.values ++ [a]) := by
  have hrest := flatMap_kerase_perm k b.entries
  show ((b.bucket k ++ [a]) ++ (b.entries.kerase k).flatMap Sigma.snd).Perm _
  rw [List.append_assoc]
  refine (List.perm_append_comm.append_left _).trans ?_
  rw [← List.append_assoc]
  exact hrest.symm.append_right [a]

/-- **All lists together are the values.** -/
theorem values_fill (l : List α) :
    ∀ b : Buckets κ α, (fill key l b).values.Perm (b.values ++ l) := by
  induction l with
  | nil =>
    intro b
    rw [List.append_nil]
    exact .refl _
  | cons a l ih =>
    intro b
    refine (ih _).trans ?_
    rw [← List.singleton_append, ← List.append_assoc]
    exact values_put.append_right l

end Buckets

/-- A collection that gets its keys from a list, one after the other. -/
theorem foldl_has_iff {σ α : Type} (has : σ → Prop) {add : σ → α → σ} {hit : α → Prop}
    (hadd : ∀ s a, has (add s a) ↔ has s ∨ hit a) (l : List α) :
    ∀ s, has (l.foldl add s) ↔ has s ∨ ∃ a ∈ l, hit a := by
  induction l with
  | nil => simp
  | cons a l ih =>
    intro s
    rw [List.foldl_cons, ih, hadd, or_assoc]
    simp only [List.mem_cons, exists_eq_or_imp]

end InfluxCluster.Lib
