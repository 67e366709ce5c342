/-
  Append-only logs with a read cursor, and the queue a chain of them makes.

  A `Log` is a list of items and a cursor that stands on one of them or past the last; the bound
  is a FIELD, so a cursor past the end cannot be written down.  Producers `push` at the end, the
  one consumer moves the cursor with `next`; `remaining` is what it still has to see.

  A CHAIN is a list of logs, read from the front and written at the back.  Its `content` is the
  items still to be read, log after log.  Three moves are enough for a queue that rolls over to a
  new log when the last one is full and drops the first one when it is used up (`trim`):

  * `pushLast` — one more item at the back;
  * `roll`     — a new empty log at the back;
  * `advance`  — one item read at the front, and the front log dropped when it is used up and
    another follows.

  `content` is what they are about (`content_pushLast`, `content_roll`, `content_advance`): push
  appends, roll changes nothing, advance takes the head.  A reader that looks only at the FRONT
  log sees the head of the content only while no used-up log stands before another one; that is
  `Ready`, and `head_of_ready` is what it is good for.  `roll` is the move that can break it.
-/
import Mathlib.Data.List.Basic
import Mathlib.Order.Basic

namespace InfluxCluster.Lib

universe u

/-- An append-only log with a read cursor. -/
structure Log (α : Type u) where
  items : List α
  cursor : Nat
  cursor_le : cursor ≤ items.length

namespace Log

variable {α : Type u}

/-- The empty log. -/
def empty : Log α := ⟨[], 0, Nat.le_refl _⟩

/-- One more item at the end; the cursor stays. -/
def push (l : Log α) (a : α) : Log α :=
  ⟨l.items ++ [a], l.cursor, by have := l.cursor_le; simp only [List.length_append]; omega⟩

/-- Past the current item; at the end the cursor stays. -/
def next (l : Log α) : Log α :=
  if h : l.cursor < l.items.length then ⟨l.items, l.cursor + 1, h⟩ else l

/-- The items from the cursor on. -/
def remaining (l : Log α) : List α := l.items.drop l.cursor

/-- Everything has been read. -/
def Drained (l : Log α) : Prop := l.cursor = l.items.length

instance (l : Log α) : Decidable l.Drained := inferInstanceAs (Decidable (_ = _))

@[simp] theorem empty_remaining : (empty : Log α).remaining = [] := rfl

@[simp] theorem push_items (l : Log α) (a : α) : (l.push a).items = l.items ++ [a] := rfl

@[simp] theorem push_cursor (l : Log α) (a : α) : (l.push a).cursor = l.cursor := rfl

theorem next_of_lt {l : Log α} (h : l.cursor < l.items.length) :
    l.next = ⟨l.items, l.cursor + 1, h⟩ := dif_pos h

theorem next_of_drained {l : Log α} (h : l.Drained) : l.next = l :=
  dif_neg (by rw [h]; exact Nat.lt_irrefl _)

@[simp] theorem next_items (l : Log α) : l.next.items = l.items := by
  rw [next]; split <;> rfl

theorem cursor_lt_of_not_drained {l : Log α} (h : ¬ l.Drained) : l.cursor < l.items.length :=
  Nat.lt_of_le_of_ne l.cursor_le h

/-- A log is drained exactly when nothing remains. -/
theorem remaining_eq_nil_iff (l : Log α) : l.remaining = [] ↔ l.Drained := by
  have := l.cursor_le
  rw [remaining, List.drop_eq_nil_iff, Drained]
  omega

@[simp] theorem remaining_push (l : Log α) (a : α) :
    (l.push a).remaining = l.remaining ++ [a] :=
  List.drop_append_of_le_length l.cursor_le

/-- The current item, then what remains after it. -/
theorem remaining_of_lt {l : Log α} (h : l.cursor < l.items.length) :
    l.remaining = l.items[l.cursor] :: l.next.remaining := by
  rw [next_of_lt h, remaining, remaining, List.drop_eq_getElem_cons h]

@[simp] theorem remaining_next (l : Log α) : l.next.remaining = l.remaining.tail := by
  by_cases h : l.cursor < l.items.length
  · rw [remaining_of_lt h, List.tail_cons]
  · have hd : l.Drained := Nat.le_antisymm l.cursor_le (Nat.le_of_not_lt h)
    rw [next_of_drained hd, (remaining_eq_nil_iff l).mpr hd, List.tail_nil]

end Log

/-! ## Chains of logs -/

namespace Chain

variable {α : Type u}

/-- The items still to be read, log after log. -/
def content (ls : List (Log α)) : List α := ls.flatMap Log.remaining

@[simp] theorem content_nil : content ([] : List (Log α)) = [] := rfl

@[simp] theorem content_cons (l : Log α) (ls : List (Log α)) :
    content (l :: ls) = l.remaining ++ content ls := rfl

@[simp] theorem content_append (ls ms : List (Log α)) :
    content (ls ++ ms) = content ls ++ content ms := List.flatMap_append

/-- One more item in the last log. -/
def pushLast (a : α) : List (Log α) → List (Log α)
  | [] => []
  | [l] => [l.push a]
  | l :: m :: ls => l :: pushLast a (m :: ls)

/-- A new empty log behind the others. -/
def roll (ls : List (Log α)) : List (Log α) := ls ++ [Log.empty]

/-- Drop the first log if it is used up and another follows. -/
def trim : List (Log α) → List (Log α)
  | [] => []
  | l :: ls => if l.Drained ∧ ls ≠ [] then ls else l :: ls

/-- Read one item of the first log; drop that log if it is then used up and another follows. -/
def advance : List (Log α) → List (Log α)
  | [] => []
  | l :: ls => trim (l.next :: ls)

theorem pushLast_append (a : α) (ls : List (Log α)) (l : Log α) :
    pushLast a (ls ++ [l]) = ls ++ [l.push a] := by
  induction ls with
  | nil => rfl
  | cons m ls ih =>
    cases ls with
    | nil => rfl
    | cons n ls => exact congrArg (m :: ·) ih

theorem content_pushLast {ls : List (Log α)} (h : ls ≠ []) (a : α) :
    content (pushLast a ls) = content ls ++ [a] := by
  obtain ⟨init, l, rfl⟩ := List.eq_nil_or_concat' ls |>.resolve_left h
  simp [pushLast_append]

@[simp] theorem content_roll (ls : List (Log α)) : content (roll ls) = content ls := by
  simp [roll]

@[simp] theorem content_trim (ls : List (Log α)) : content (trim ls) = content ls := by
  cases ls with
  | nil => rfl
  | cons l ls =>
    rw [trim]
    split
    · rename_i h
      rw [content_cons, (Log.remaining_eq_nil_iff l).mpr h.1, List.nil_append]
    · rfl

/-- Advancing takes the first item, if the first log still has one, and otherwise none. -/
theorem content_advance (l : Log α) (ls : List (Log α)) :
    content (advance (l :: ls)) = l.remaining.tail ++ content ls := by
  rw [advance, content_trim, content_cons, Log.remaining_next]

/-! ## What a reader at the front sees -/

/-- The item under the cursor of the first log. -/
def first : List (Log α) → Option α
  | [] => none
  | l :: _ => l.remaining.head?

/-- Advancing takes exactly the item the reader sees. -/
theorem content_of_first {ls : List (Log α)} {a : α} (h : first ls = some a) :
    content ls = a :: content (advance ls) := by
  cases ls with
  | nil => cases h
  | cons l ls =>
    obtain ⟨rest, hrest⟩ := List.head?_eq_some_iff.mp h
    rw [content_advance, content_cons, hrest]
    rfl

theorem first_push {l : Log α} {a : α} (h : l.remaining.head? = some a) (b : α) :
    (l.push b).remaining.head? = some a := by
  rw [Log.remaining_push, List.head?_append, h]
  rfl

/-- Writing at the back does not change what the reader sees. -/
theorem first_pushLast {ls : List (Log α)} {a : α} (h : first ls = some a) (b : α) :
    first (pushLast b ls) = some a := by
  cases ls with
  | nil => cases h
  | cons l ls =>
    cases ls with
    | nil => exact first_push h b
    | cons m ls => exact h

theorem first_roll {ls : List (Log α)} {a : α} (h : first ls = some a) :
    first (roll ls) = some a := by
  cases ls with
  | nil => cases h
  | cons l ls => exact h

/-! ## Chains whose first log shows the head of the content -/

/-- Every log but the last still has something to read. -/
def Ready (ls : List (Log α)) : Prop := ∀ l ∈ ls.dropLast, ¬ l.Drained

theorem ready_singleton (l : Log α) : Ready [l] := fun _ h => absurd h List.not_mem_nil

/-- In a ready chain a used-up FIRST log means that the whole chain is used up. -/
theorem head_of_ready {l : Log α} {ls : List (Log α)} (h : Ready (l :: ls)) (hd : l.Drained) :
    content (l :: ls) = [] := by
  cases ls with
  | nil => rw [content_cons, (Log.remaining_eq_nil_iff l).mpr hd]; rfl
  | cons m ls =>
    exact absurd hd (h l (by rw [List.dropLast_cons_cons]; exact List.mem_cons_self))

theorem ready_pushLast {ls : List (Log α)} (h : Ready ls) (a : α) : Ready (pushLast a ls) := by
  rcases List.eq_nil_or_concat' ls with rfl | ⟨init, l, rfl⟩
  · exact h
  · rw [pushLast_append]
    intro m hm
    rw [List.dropLast_concat] at hm
    exact h m (by rw [List.dropLast_concat]; exact hm)

/-- Rolling over keeps a chain ready when the log it leaves behind has something to read. -/
theorem ready_roll {init : List (Log α)} {l : Log α} (h : Ready (init ++ [l]))
    (hl : ¬ l.Drained) : Ready (roll (init ++ [l])) := by
  intro m hm
  rw [roll, List.dropLast_concat] at hm
  rcases List.mem_append.mp hm with hm | hm
  · exact h m (by rw [List.dropLast_concat]; exact hm)
  · rw [List.mem_singleton.mp hm]; exact hl

/-- A first log may be used up, if it goes. -/
theorem ready_trim {l : Log α} {ls : List (Log α)} (h : Ready ls) : Ready (trim (l :: ls)) := by
  rw [trim]
  split
  · exact h
  · rename_i hc
    cases ls with
    | nil => exact ready_singleton l
    | cons m ls =>
      intro n hn
      rw [List.dropLast_cons_cons] at hn
      rcases List.mem_cons.mp hn with rfl | hn
      · exact fun hd => hc ⟨hd, List.cons_ne_nil m ls⟩
      · exact h n hn

theorem ready_tail {l : Log α} {ls : List (Log α)} (h : Ready (l :: ls)) : Ready ls := by
  cases ls with
  | nil => exact fun _ hn => absurd hn List.not_mem_nil
  | cons m ls =>
    intro n hn
    exact h n (by rw [List.dropLast_cons_cons]; exact List.mem_cons_of_mem l hn)

theorem ready_advance {ls : List (Log α)} (h : Ready ls) : Ready (advance ls) := by
  cases ls with
  | nil => exact h
  | cons l ls => exact ready_trim (ready_tail h)

/-! ## Reading in another order -/

variable {ι : Type u}

/-- Keys without content can be left out. -/
theorem flatMap_filter_of_nil {f : ι → List α} {p : ι → Bool} (ks : List ι)
    (h : ∀ k ∈ ks, p k = false → f k = []) : (ks.filter p).flatMap f = ks.flatMap f := by
  induction ks with
  | nil => rfl
  | cons k ks ih =>
    have ih' := ih fun x hx => h x (List.mem_cons_of_mem k hx)
    cases hp : p k with
    | true =>
      rw [List.filter_cons_of_pos hp, List.flatMap_cons, List.flatMap_cons, ih']
    | false =>
      rw [List.filter_cons_of_neg (by rw [hp]; exact Bool.false_ne_true), List.flatMap_cons,
        h k List.mem_cons_self hp, List.nil_append, ih']

/-- **A sorted rearrangement keeps the content** if the keys that have any were in order before. -/
theorem flatMap_eq_of_sorted [Preorder ι] {f : ι → List α} {p : ι → Bool} {ks ms : List ι}
    (hperm : ks.Perm ms) (hnil : ∀ k ∈ ks, p k = false → f k = [])
    (hks : (ks.filter p).Pairwise (· < ·)) (hms : ms.Pairwise (· < ·)) :
    ks.flatMap f = ms.flatMap f := by
  have hms' : (ms.filter p).Pairwise (· < ·) := hms.sublist List.filter_sublist
  have heq : ks.filter p = ms.filter p :=
    (hperm.filter p).eq_of_pairwise (fun _ _ _ _ hab hba => absurd hba (lt_asymm hab)) hks hms'
  rw [← flatMap_filter_of_nil ks hnil, heq,
    flatMap_filter_of_nil ms fun k hk => hnil k (hperm.mem_iff.mpr hk)]

end Chain

end InfluxCluster.Lib
