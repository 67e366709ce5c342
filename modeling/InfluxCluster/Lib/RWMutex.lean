/-
  A read-write lock that prefers writers, as Go's `sync.RWMutex`.

  A PARTY is a sequence of operations on the lock.  `RLock` is granted when nobody holds the lock for
  writing and nobody WAITS to; `Lock` is first asked for, from then on keeps new readers out, and is
  granted when nobody holds the lock.  There is no re-entry: a party that holds the lock is treated as
  everybody else.

  A party NESTS if it holds the lock and asks for it again before it has given it up.  For a writer
  that is the end: it waits for itself.  For a reader it is not, as long as no writer waits; if one
  does, the reader waits for the writer, and the writer for the reader.  A state in which a nesting
  party is caught like that is DOOMED.  Being doomed lasts (`Doomed.step`), and

  * a state that is not doomed is not deadlocked: somebody can go on (`not_deadlocked`);
  * a run that has been doomed and that cannot go on has ended in a deadlock (`Doomed.deadlocked`).

  A step dooms the parties if it asks for `Lock` while some party nests, or grants it to one that will
  (`Orderly`, exact by `doomed_step_iff`).  So orderly runs never deadlock, and of the runs that go on
  as long as possible only those (`deadlock_free_iff`).
-/
import InfluxCluster.Lib.Lockstep
import Mathlib.Data.List.Basic

namespace InfluxCluster.Lib.RWMutex

/-! ## Parties -/

inductive LockOp
  | rlock
  | runlock
  | lock
  | unlock
  deriving DecidableEq

/-- What a party holds: nothing, some read locks (one more than the number), or the write lock. -/
inductive Hold
  | free
  | reading (more : Nat)
  | writing
  deriving DecidableEq

/-- What a party has before it: its next operations, or a `Lock` that was asked for and the operations
    after it. -/
inductive Todo
  | ready (ops : List LockOp)
  | waiting (rest : List LockOp)
  deriving DecidableEq

structure Party where
  hold : Hold
  todo : Todo
  deriving DecidableEq

/-- What is held after an operation that was granted; `none` if it cannot be granted to this holder at
    all, or gives up what is not held. -/
def Hold.next : Hold → LockOp → Option Hold
  | .free, .rlock => some (.reading 0)
  | .reading more, .rlock => some (.reading (more + 1))
  | .reading 0, .runlock => some .free
  | .reading (more + 1), .runlock => some (.reading more)
  | .free, .lock => some .writing
  | .writing, .unlock => some .free
  | _, _ => none

/-- The operation asks for the lock. -/
def LockOp.asks : LockOp → Bool
  | .rlock | .lock => true
  | .runlock | .unlock => false

/-- The operations give up what is held, and in the end everything; what comes after an operation that
    cannot be granted does not matter. -/
def Legal : Hold → List LockOp → Prop
  | hold, [] => hold = .free
  | hold, op :: ops =>
    match hold.next op with
    | some hold' => Legal hold' ops
    | none => op.asks = true

/-- The lock is asked for before it has been given up. -/
def nests : Hold → List LockOp → Bool
  | _, [] => false
  | hold, op :: ops =>
    if op.asks then hold ≠ .free
    else match hold.next op with
      | some hold' => nests hold' ops
      | none => false

def Party.Waits (p : Party) : Prop := ∃ rest, p.todo = .waiting rest

def Party.Legal (p : Party) : Prop :=
  match p.todo with
  | .ready ops => RWMutex.Legal p.hold ops
  | .waiting rest => p.hold = .free → RWMutex.Legal .writing rest

def Party.nests (p : Party) : Bool :=
  match p.todo with
  | .ready ops => RWMutex.nests p.hold ops
  | .waiting _ => p.hold ≠ .free

/-- The party has no operations left. -/
def Party.Finished (p : Party) : Prop := p.todo = .ready []

instance (p : Party) : Decidable p.Waits :=
  match h : p.todo with
  | .ready ops => isFalse fun hw => by obtain ⟨rest, hr⟩ := hw; rw [h] at hr; cases hr
  | .waiting rest => isTrue ⟨rest, h⟩

instance (p : Party) : Decidable p.Finished := inferInstanceAs (Decidable (_ = _))

/-! ## The lock -/

/-- `RLock` is granted. -/
def admitsReader (s : List Party) : Prop := ∀ p ∈ s, p.hold ≠ .writing ∧ ¬ p.Waits

/-- `Lock` is granted. -/
def admitsWriter (s : List Party) : Prop := ∀ p ∈ s, p.hold = .free

instance (s : List Party) : Decidable (admitsReader s) :=
  inferInstanceAs (Decidable (∀ p ∈ s, _ ∧ _))

instance (s : List Party) : Decidable (admitsWriter s) :=
  inferInstanceAs (Decidable (∀ p ∈ s, _ = _))

/-- An operation is granted. -/
def Party.goOn (p : Party) (op : LockOp) (ops : List LockOp) : Option Party :=
  (p.hold.next op).map fun hold => { hold := hold, todo := .ready ops }

/-- The next step of a party; `none` if it has to wait, or is through. -/
def Party.next (s : List Party) (p : Party) : Option Party :=
  match p.todo with
  | .ready [] => none
  | .ready (.lock :: ops) => some { p with todo := .waiting ops }
  | .ready (.rlock :: ops) => if admitsReader s then p.goOn .rlock ops else none
  | .ready (.runlock :: ops) => p.goOn .runlock ops
  | .ready (.unlock :: ops) => p.goOn .unlock ops
  | .waiting rest =>
    if admitsWriter s then some { hold := .writing, todo := .ready rest } else none

/-- A step of the `i`-th party. -/
def step (s : List Party) (i : Nat) : Option (List Party) := do
  let p ← s[i]?
  let p' ← p.next s
  return s.set i p'

/-- **Somebody is not through, and nobody can go on.** -/
def Deadlocked (s : List Party) : Prop := (∃ p ∈ s, ¬ p.Finished) ∧ ∀ p ∈ s, p.next s = none

/-- Nobody can go on. -/
def Stopped (s : List Party) : Prop := ∀ i, step s i = none

instance (s : List Party) : Decidable (Deadlocked s) := inferInstanceAs (Decidable (_ ∧ _))

/-- The parties before they start. -/
def parties (programs : List (List LockOp)) : List Party :=
  programs.map fun ops => { hold := .free, todo := .ready ops }

/-- A step is the move of one party. -/
theorem step_eq_some {s s' : List Party} {i : Nat} (h : step s i = some s') :
    ∃ p p', s[i]? = some p ∧ p.next s = some p' ∧ s' = s.set i p' := by
  unfold step at h
  obtain ⟨p, hp, h⟩ := Option.bind_eq_some_iff.mp h
  obtain ⟨p', hp', h⟩ := Option.bind_eq_some_iff.mp h
  cases h
  exact ⟨p, p', hp, hp', rfl⟩

/-- Where everything stands still, nobody can move. -/
theorem Stopped.next_eq_none {s : List Party} (h : Stopped s) : ∀ p ∈ s, p.next s = none := by
  intro p hp
  obtain ⟨i, hi⟩ := List.mem_iff_getElem?.mp hp
  have hnone := h i
  unfold step at hnone
  rw [hi] at hnone
  rcases hnext : p.next s with _ | p'
  · rfl
  · rw [Option.bind_eq_bind, Option.bind_some, hnext] at hnone
    cases hnone

/-- What a party does: it asks for `Lock`, is granted it, or goes on with another operation. -/
inductive Does (s : List Party) : Party → Party → Prop
  | ask {hold : Hold} {ops : List LockOp} :
    Does s ⟨hold, .ready (.lock :: ops)⟩ ⟨hold, .waiting ops⟩
  | grant {hold : Hold} {rest : List LockOp} (h : admitsWriter s) :
    Does s ⟨hold, .waiting rest⟩ ⟨.writing, .ready rest⟩
  | rlock {hold hold' : Hold} {ops : List LockOp} (h : admitsReader s)
    (hnext : hold.next .rlock = some hold') :
    Does s ⟨hold, .ready (.rlock :: ops)⟩ ⟨hold', .ready ops⟩
  | release {hold hold' : Hold} {op : LockOp} {ops : List LockOp} (hop : op.asks = false)
    (hnext : hold.next op = some hold') :
    Does s ⟨hold, .ready (op :: ops)⟩ ⟨hold', .ready ops⟩

/-- A reader is let in unless a writer holds the lock or asks for it. -/
theorem next_rlock (s : List Party) (hold : Hold) (ops : List LockOp) :
    Party.next s ⟨hold, .ready (.rlock :: ops)⟩
      = if admitsReader s then Party.goOn ⟨hold, .ready (.rlock :: ops)⟩ .rlock ops else none := rfl

/-- A writer is let in when nobody holds the lock. -/
theorem next_waiting (s : List Party) (hold : Hold) (rest : List LockOp) :
    Party.next s ⟨hold, .waiting rest⟩
      = if admitsWriter s then some ⟨.writing, .ready rest⟩ else none := rfl

/-- The moves, by kind. -/
theorem does_of_next {s : List Party} {p p' : Party} (h : p.next s = some p') : Does s p p' := by
  obtain ⟨hold, todo⟩ := p
  rcases todo with (_ | ⟨op, ops⟩) | rest
  · cases h
  · cases op with
    | lock =>
      cases h
      exact .ask
    | rlock =>
      by_cases hr : admitsReader s
      · rw [next_rlock, if_pos hr] at h
        obtain ⟨hold', hnext, rfl⟩ := Option.map_eq_some_iff.mp h
        exact .rlock hr hnext
      · rw [next_rlock, if_neg hr] at h
        cases h
    | runlock =>
      obtain ⟨hold', hnext, rfl⟩ := Option.map_eq_some_iff.mp h
      exact .release rfl hnext
    | unlock =>
      obtain ⟨hold', hnext, rfl⟩ := Option.map_eq_some_iff.mp h
      exact .release rfl hnext
  · by_cases hw : admitsWriter s
    · rw [next_waiting, if_pos hw] at h
      cases h
      exact .grant hw
    · rw [next_waiting, if_neg hw] at h
      cases h

/-! ## Legal parties -/

/-- What a party may do leaves it legal. -/
theorem Party.Legal.does {s : List Party} {p p' : Party} (h : p.Legal) (hp : Does s p p')
    (hmem : p ∈ s) : p'.Legal := by
  cases hp with
  | ask =>
    intro hfree
    cases hfree
    exact h
  | grant hw => exact h (hw _ hmem)
  | rlock hr hnext =>
    unfold Party.Legal RWMutex.Legal at h
    dsimp only at h
    rw [hnext] at h
    exact h
  | release hop hnext =>
    unfold Party.Legal RWMutex.Legal at h
    dsimp only at h
    rw [hnext] at h
    exact h

/-- Nobody unlocks what they do not hold, after any step. -/
theorem legal_step {s s' : List Party} {i : Nat} (hs : ∀ p ∈ s, p.Legal) (h : step s i = some s') :
    ∀ p ∈ s', p.Legal := by
  obtain ⟨p, p', hp, hnext, rfl⟩ := step_eq_some h
  have hmem : p ∈ s := List.mem_of_getElem? hp
  intro q hq
  rcases List.mem_or_eq_of_mem_set hq with hold | rfl
  · exact hs q hold
  · exact (hs p hmem).does (does_of_next hnext) hmem

/-- A legal party whose next operation cannot be granted to it asks for the lock. -/
theorem Legal.asks_of_none {hold : Hold} {op : LockOp} {ops : List LockOp}
    (h : Legal hold (op :: ops)) (hnone : hold.next op = none) : op.asks = true := by
  unfold Legal at h
  rw [hnone] at h
  exact h

/-- A party that holds the lock and does not nest gives something up. -/
theorem Party.Legal.releases {s : List Party} {p : Party} (h : p.Legal) (hhold : p.hold ≠ .free)
    (hnest : p.nests = false) : p.next s ≠ none := by
  obtain ⟨hold, todo⟩ := p
  rcases todo with (_ | ⟨op, ops⟩) | rest
  · exact absurd h hhold
  · have hasks : op.asks = false := by
      by_contra hne
      rw [Bool.not_eq_false] at hne
      have hn : RWMutex.nests hold (op :: ops) = true := by
        unfold RWMutex.nests
        rw [if_pos hne]
        exact decide_eq_true hhold
      exact absurd (hn.symm.trans hnest) Bool.noConfusion
    have hsome : hold.next op ≠ none := by
      intro hnone
      have hasks' := Legal.asks_of_none h hnone
      rw [hasks] at hasks'
      cases hasks'
    cases op with
    | rlock => cases hasks
    | lock => cases hasks
    | runlock =>
      intro hnone
      exact hsome (Option.map_eq_none_iff.mp hnone)
    | unlock =>
      intro hnone
      exact hsome (Option.map_eq_none_iff.mp hnone)
  · exact absurd hnest (by simp [Party.nests, hhold])

/-- A party goes on if readers are let in: it asks for `Lock`, reads, or gives something up. -/
theorem Party.Legal.goes_on {s : List Party} {p : Party} (h : p.Legal) (hp : p ∈ s)
    (hunfinished : ¬ p.Finished) (hr : admitsReader s) : p.next s ≠ none := by
  intro hgo
  obtain ⟨hnowriter, hready⟩ := hr p hp
  obtain ⟨hold, todo⟩ := p
  rcases todo with (_ | ⟨op, ops⟩) | rest
  · exact hunfinished rfl
  · cases op with
    | lock => cases hgo
    | rlock =>
      rw [next_rlock, if_pos hr] at hgo
      have hnone := Option.map_eq_none_iff.mp hgo
      cases hold with
      | free => cases hnone
      | reading more => cases hnone
      | writing => exact hnowriter rfl
    | runlock =>
      have hasks := Legal.asks_of_none h (Option.map_eq_none_iff.mp hgo)
      cases hasks
    | unlock =>
      have hasks := Legal.asks_of_none h (Option.map_eq_none_iff.mp hgo)
      cases hasks
  · exact hready ⟨rest, rfl⟩

/-! ## Doom -/

/-- **A nesting party waits for itself, or for a writer that waits for it.** -/
def Doomed (s : List Party) : Prop :=
  ∃ p ∈ s, p.nests = true ∧ (p.hold = .writing ∨ ∃ q ∈ s, q.Waits)

/-- Whoever nests holds the lock. -/
theorem nests_free (ops : List LockOp) : nests .free ops = false := by
  cases ops with
  | nil => rfl
  | cons op ops => cases op <;> rfl

/-- Who is about to nest holds the lock. -/
theorem Party.hold_of_nests {p : Party} (h : p.nests = true) : p.hold ≠ .free := by
  intro hfree
  obtain ⟨hold, todo⟩ := p
  cases hfree
  cases todo with
  | ready ops =>
    have hn : RWMutex.nests .free ops = true := h
    rw [nests_free] at hn
    cases hn
  | waiting rest => cases h

/-- Who is about to nest has not finished. -/
theorem Party.not_finished_of_nests {p : Party} (h : p.nests = true) : ¬ p.Finished := by
  intro hf
  obtain ⟨hold, todo⟩ := p
  cases hf
  cases h

/-- **A state that is not doomed is not deadlocked.** -/
theorem not_deadlocked {s : List Party} (hs : ∀ p ∈ s, p.Legal) (h : ¬ Doomed s) :
    ¬ Deadlocked s := by
  rintro ⟨⟨p, hp, hunfinished⟩, hnone⟩
  -- a party that holds the lock is waiting for it again
  have hnests : ∀ q ∈ s, q.hold ≠ .free → q.nests = true := by
    intro q hq hhold
    by_contra hne
    rw [Bool.not_eq_true] at hne
    exact (hs q hq).releases hhold hne (hnone q hq)
  -- so nobody writes, and nobody reads while somebody waits
  have hnowriter : ∀ q ∈ s, q.hold ≠ .writing := by
    intro q hq hw
    have hhold : q.hold ≠ .free := by rw [hw]; nofun
    exact h ⟨q, hq, hnests q hq hhold, Or.inl hw⟩
  by_cases hwait : ∃ q ∈ s, q.Waits
  · have hfree : admitsWriter s := by
      intro r hr
      by_contra hhold
      exact h ⟨r, hr, hnests r hr hhold, Or.inr hwait⟩
    obtain ⟨⟨hold, todo⟩, hq, rest, rfl⟩ := hwait
    have hgo := hnone _ hq
    rw [next_waiting, if_pos hfree] at hgo
    cases hgo
  · -- nobody waits either, and then whoever is not through goes on
    have hreader : admitsReader s := fun q hq => ⟨hnowriter q hq, fun hw => hwait ⟨q, hq, hw⟩⟩
    exact (hs p hp).goes_on hp hunfinished hreader (hnone p hp)

/-- Giving up a part of what is held changes nothing about nesting. -/
theorem nests_release {hold hold' : Hold} {op : LockOp} {ops : List LockOp} (hop : op.asks = false)
    (hnext : hold.next op = some hold') : nests hold (op :: ops) = nests hold' ops := by
  rw [nests, hop, if_neg Bool.false_ne_true, hnext]

/-- A writer gives up everything at once. -/
theorem nests_writing_release {hold' : Hold} {op : LockOp} {ops : List LockOp}
    (hop : op.asks = false) (hnext : Hold.next .writing op = some hold') :
    nests .writing (op :: ops) = false := by
  rw [nests_release hop hnext]
  cases op with
  | rlock => cases hop
  | lock => cases hop
  | runlock => cases hnext
  | unlock =>
    cases hnext
    exact nests_free ops

/-- Nobody writes after giving something up. -/
theorem Hold.next_ne_writing {hold : Hold} {op : LockOp} (hop : op.asks = false) :
    hold.next op ≠ some .writing := by
  cases op with
  | rlock => cases hop
  | lock => cases hop
  | runlock => rcases hold with _ | (_ | more) | _ <;> nofun
  | unlock => rcases hold with _ | (_ | more) | _ <;> nofun

section Set

variable {s : List Party} {i : Nat} {p p' : Party}

theorem mem_set_self (hp : s[i]? = some p) : p' ∈ s.set i p' := by
  obtain ⟨hlt, -⟩ := List.getElem?_eq_some_iff.mp hp
  exact List.mem_set hlt p'

/-- The other parties stay. -/
theorem mem_set_or_eq (p' : Party) (hp : s[i]? = some p) {q : Party} (hq : q ∈ s) :
    q ∈ s.set i p' ∨ q = p := by
  obtain ⟨k, hk⟩ := List.mem_iff_getElem?.mp hq
  by_cases hik : i = k
  · subst hik
    rw [hp] at hk
    cases hk
    exact Or.inr rfl
  · refine Or.inl (List.mem_iff_getElem?.mpr ⟨k, ?_⟩)
    rw [List.getElem?_set_ne hik]
    exact hk

/-- Being doomed does not end. -/
theorem Doomed.set (h : Doomed s) (hp : s[i]? = some p) (hdoes : Does s p p') :
    Doomed (s.set i p') := by
  obtain ⟨q, hq, hnests, hcaught⟩ := h
  have hhold : q.hold ≠ .free := Party.hold_of_nests hnests
  -- nobody is granted anything
  have hnowriter : ¬ admitsWriter s := fun hw => hhold (hw q hq)
  have hnoreader : ¬ admitsReader s := by
    intro hr
    rcases hcaught with hw | ⟨r, hr', hwaits⟩
    · exact (hr q hq).1 hw
    · exact (hr r hr').2 hwaits
  -- whoever waits waits on
  have hwaits : (∃ r ∈ s, r.Waits) → ∃ r ∈ s.set i p', r.Waits := by
    rintro ⟨r, hr, rest, hrest⟩
    rcases mem_set_or_eq p' hp hr with hmem | rfl
    · exact ⟨r, hmem, rest, hrest⟩
    · cases hdoes with
      | ask => cases hrest
      | grant hw => exact absurd hw hnowriter
      | rlock hr hnext => cases hrest
      | release hop hnext => cases hrest
  rcases mem_set_or_eq p' hp hq with hmem | rfl
  · exact ⟨q, hmem, hnests, hcaught.imp id hwaits⟩
  · -- the nesting party itself goes on: it asks again, or gives up a part of what it holds
    cases hdoes with
    | ask =>
      refine ⟨_, mem_set_self hp, ?_, Or.inr ⟨_, mem_set_self hp, _, rfl⟩⟩
      exact decide_eq_true hhold
    | grant hw => exact absurd hw hnowriter
    | rlock hr hnext => exact absurd hr hnoreader
    | release hop hnext =>
      rename_i hold hold' op ops
      have hnests' : RWMutex.nests hold' ops = true := (nests_release hop hnext).symm.trans hnests
      rcases hcaught with rfl | hw
      · exact absurd (hnests.symm.trans (nests_writing_release hop hnext)) Bool.noConfusion
      · exact ⟨_, mem_set_self hp, hnests', Or.inr (hwaits hw)⟩

end Set

/-- There is no way back. -/
theorem Doomed.step {s s' : List Party} {i : Nat} (h : Doomed s)
    (hstep : RWMutex.step s i = some s') : Doomed s' := by
  obtain ⟨p, p', hp, hnext, rfl⟩ := step_eq_some hstep
  exact h.set hp (does_of_next hnext)

/-- **A doomed state in which nobody can go on is a deadlock.** -/
theorem Doomed.deadlocked {s : List Party} (h : Doomed s) (hstop : Stopped s) : Deadlocked s := by
  obtain ⟨p, hp, hnests, -⟩ := h
  exact ⟨⟨p, hp, Party.not_finished_of_nests hnests⟩, hstop.next_eq_none⟩

/-! ## Orderly steps -/

/-- `Lock` is asked for only if nobody nests, and granted only to a party that will not. -/
def Orderly (s : List Party) (i : Nat) : Prop :=
  match s[i]? with
  | some ⟨_, .ready (.lock :: _)⟩ => ∀ q ∈ s, q.nests = false
  | some ⟨_, .waiting rest⟩ => nests .writing rest = false
  | _ => True

section Set

variable {s : List Party} {i : Nat} {p p' : Party}

/-- Asking for the lock is orderly unless somebody nests. -/
theorem orderly_ask {hold : Hold} {ops : List LockOp}
    (hp : s[i]? = some ⟨hold, .ready (.lock :: ops)⟩) :
    Orderly s i ↔ ∀ q ∈ s, q.nests = false := by
  rw [Orderly, hp]

/-- Getting it is, unless the writer itself nests. -/
theorem orderly_grant {hold : Hold} {rest : List LockOp} (hp : s[i]? = some ⟨hold, .waiting rest⟩) :
    Orderly s i ↔ nests .writing rest = false := by
  rw [Orderly, hp]

/-- All other moves are. -/
theorem orderly_other {hold : Hold} {op : LockOp} {ops : List LockOp}
    (hp : s[i]? = some ⟨hold, .ready (op :: ops)⟩) (hop : op ≠ .lock) : Orderly s i := by
  rw [Orderly, hp]
  cases op with
  | lock => exact absurd rfl hop
  | rlock => trivial
  | runlock => trivial
  | unlock => trivial

/-- To ask for `Lock` dooms the parties if one of them nests. -/
theorem doomed_ask {hold : Hold} {ops : List LockOp}
    (hp : s[i]? = some ⟨hold, .ready (.lock :: ops)⟩) :
    Doomed (s.set i ⟨hold, .waiting ops⟩) ↔ ∃ q ∈ s, q.nests = true := by
  constructor
  · rintro ⟨q, hq, hnests, -⟩
    rcases List.mem_or_eq_of_mem_set hq with hmem | rfl
    · exact ⟨q, hmem, hnests⟩
    · exact ⟨_, List.mem_of_getElem? hp, hnests⟩
  · rintro ⟨q, hq, hnests⟩
    have hwaits : ∃ r ∈ s.set i ⟨hold, .waiting ops⟩, r.Waits := ⟨_, mem_set_self hp, ops, rfl⟩
    rcases mem_set_or_eq ⟨hold, .waiting ops⟩ hp hq with hmem | rfl
    · exact ⟨q, hmem, hnests, Or.inr hwaits⟩
    · exact ⟨_, mem_set_self hp, hnests, Or.inr hwaits⟩

/-- To grant it dooms them if the new writer nests: the others hold nothing. -/
theorem doomed_grant {hold : Hold} {rest : List LockOp} (hw : admitsWriter s)
    (hp : s[i]? = some ⟨hold, .waiting rest⟩) :
    Doomed (s.set i ⟨.writing, .ready rest⟩) ↔ nests .writing rest = true := by
  constructor
  · rintro ⟨q, hq, hnests, -⟩
    rcases List.mem_or_eq_of_mem_set hq with hmem | rfl
    · exact absurd (hw q hmem) (Party.hold_of_nests hnests)
    · exact hnests
  · intro hnests
    exact ⟨_, mem_set_self hp, hnests, Or.inl rfl⟩

/-- A reader that is let in finds nobody who writes or waits, and is not one of those. -/
theorem not_doomed_rlock {hold hold' : Hold} {ops : List LockOp} (hr : admitsReader s)
    (hnext : hold.next .rlock = some hold') : ¬ Doomed (s.set i ⟨hold', .ready ops⟩) := by
  have hreads : hold' ≠ .writing := by
    rintro rfl
    rcases hold with _ | more | _ <;> cases hnext
  have hall : admitsReader (s.set i ⟨hold', .ready ops⟩) := by
    intro q hq
    rcases List.mem_or_eq_of_mem_set hq with hmem | rfl
    · exact hr q hmem
    · exact ⟨hreads, fun ⟨rest, hrest⟩ => by cases hrest⟩
  rintro ⟨q, hq, -, hcaught⟩
  rcases hcaught with hw | ⟨r, hr', hwaits⟩
  · exact (hall q hq).1 hw
  · exact (hall r hr').2 hwaits

/-- A party that gives something up was as doomed before. -/
theorem doomed_release {hold hold' : Hold} {op : LockOp} {ops : List LockOp} (hop : op.asks = false)
    (hnext : hold.next op = some hold') (hp : s[i]? = some ⟨hold, .ready (op :: ops)⟩)
    (h : Doomed (s.set i ⟨hold', .ready ops⟩)) : Doomed s := by
  have hwaits : (∃ r ∈ s.set i ⟨hold', .ready ops⟩, r.Waits) → ∃ r ∈ s, r.Waits := by
    rintro ⟨r, hr, rest, hrest⟩
    rcases List.mem_or_eq_of_mem_set hr with hmem | rfl
    · exact ⟨r, hmem, rest, hrest⟩
    · cases hrest
  obtain ⟨q, hq, hnests, hcaught⟩ := h
  rcases List.mem_or_eq_of_mem_set hq with hmem | rfl
  · exact ⟨q, hmem, hnests, hcaught.imp id hwaits⟩
  · rcases hcaught with rfl | hw
    · exact absurd hnext (Hold.next_ne_writing hop)
    · exact ⟨_, List.mem_of_getElem? hp, (nests_release hop hnext).trans hnests, Or.inr (hwaits hw)⟩

end Set

/-- **A step dooms the parties exactly if it is not orderly.** -/
theorem doomed_step_iff {s s' : List Party} {i : Nat} (h : ¬ Doomed s)
    (hstep : step s i = some s') : ¬ Doomed s' ↔ Orderly s i := by
  obtain ⟨p, p', hp, hnext, rfl⟩ := step_eq_some hstep
  cases does_of_next hnext with
  | ask =>
    rw [doomed_ask hp, orderly_ask hp]
    simp only [not_exists, not_and, Bool.not_eq_true]
  | grant hw => rw [doomed_grant hw hp, orderly_grant hp, Bool.not_eq_true]
  | rlock hr hgot =>
    exact ⟨fun _ => orderly_other hp nofun, fun _ => not_doomed_rlock hr hgot⟩
  | release hop hgot =>
    refine ⟨fun _ => orderly_other hp ?_, fun _ hd => h (doomed_release hop hgot hp hd)⟩
    rintro rfl
    cases hop

/-! ## Runs -/

/-- Every step of the run is orderly. -/
def OrderlyRun (s : List Party) (w : List Nat) : Prop :=
  Along step (fun s i => (step s i).isSome → Orderly s i) s w

section Run

variable {s t : List Party} {w : List Nat}

/-- **A run never gets beyond help exactly if each of its steps is orderly.** -/
theorem not_doomed_iff_orderlyRun (h : ¬ Doomed s) :
    (∀ k u, (w.take k).foldlM step s = some u → ¬ Doomed u) ↔ OrderlyRun s w :=
  foldlM_take_inv_iff (J := fun _ => True) (fun _ _ _ _ _ => trivial)
    (fun _ _ _ _ hs hstep => doomed_step_iff hs hstep) w trivial h

/-- The same after any run. -/
theorem legal_run (hs : ∀ p ∈ s, p.Legal) (h : w.foldlM step s = some t) : ∀ p ∈ t, p.Legal :=
  foldlM_inv (fun _ _ _ hl hstep => legal_step hl hstep) hs h

/-- Nor after any run. -/
theorem Doomed.run (hs : Doomed s) (h : w.foldlM RWMutex.step s = some t) : Doomed t :=
  foldlM_inv (fun _ _ _ hd hstep => Doomed.step hd hstep) hs h

/-- **No state of an orderly run is a deadlock.** -/
theorem OrderlyRun.deadlock_free (hs : ∀ p ∈ s, p.Legal) (h0 : ¬ Doomed s) (h : OrderlyRun s w)
    (k : Nat) {u : List Party} (hu : (w.take k).foldlM step s = some u) : ¬ Deadlocked u :=
  not_deadlocked (legal_run hs hu) ((not_doomed_iff_orderlyRun h0).mpr h k u hu)

/-- **A run that went on as long as possible had no deadlock exactly if it was orderly.** -/
theorem deadlock_free_iff (hs : ∀ p ∈ s, p.Legal) (h0 : ¬ Doomed s) (h : w.foldlM step s = some t)
    (hstop : Stopped t) :
    (∀ k u, (w.take k).foldlM step s = some u → ¬ Deadlocked u) ↔ OrderlyRun s w := by
  refine ⟨fun hfree => ?_, fun horderly k u hu => horderly.deadlock_free hs h0 k hu⟩
  have hend : ¬ Deadlocked t := hfree w.length t (by rw [List.take_length]; exact h)
  -- a state that is doomed on the way is still doomed at the end
  refine (not_doomed_iff_orderlyRun h0).mp fun k u hu hdoomed => hend ?_
  rw [← List.take_append_drop k w, List.foldlM_append, hu] at h
  exact (hdoomed.run h).deadlocked hstop

end Run

/-! ## Every run ends -/

/-- How many steps a party has before it at most: two for each `Lock`. -/
def Party.left (p : Party) : Nat :=
  match p.todo with
  | .ready ops => 2 * ops.length
  | .waiting rest => 2 * rest.length + 1

/-- Each move brings its party forward. -/
theorem Does.left_lt {s : List Party} {p p' : Party} (h : Does s p p') : p'.left < p.left := by
  cases h <;> simp only [Party.left, List.length_cons] <;> omega

/-- What all of them have before them. -/
def left : List Party → Nat
  | [] => 0
  | p :: s => p.left + left s

theorem left_set_lt {s : List Party} {i : Nat} {p p' : Party} (hp : s[i]? = some p)
    (hless : p'.left < p.left) : left (s.set i p') < left s := by
  induction s generalizing i with
  | nil => cases hp
  | cons q s ih =>
    cases i with
    | zero =>
      cases hp
      exact Nat.add_lt_add_right hless (left s)
    | succ i => exact Nat.add_lt_add_left (ih hp) q.left

/-- So runs are finite. -/
theorem left_step {s s' : List Party} {i : Nat} (h : step s i = some s') : left s' < left s := by
  obtain ⟨p, p', hp, hnext, rfl⟩ := step_eq_some h
  exact left_set_lt hp (does_of_next hnext).left_lt

/-- From every state the parties come to one in which nobody can go on. -/
theorem exists_stopped (s : List Party) :
    ∃ (w : List Nat) (t : List Party), w.foldlM step s = some t ∧ Stopped t := by
  by_cases hstop : Stopped s
  · exact ⟨[], s, rfl, hstop⟩
  · obtain ⟨i, hi⟩ := not_forall.mp hstop
    obtain ⟨s', hs'⟩ := Option.ne_none_iff_exists'.mp hi
    have hless := left_step hs'
    obtain ⟨w, t, hw, ht⟩ := exists_stopped s'
    refine ⟨i :: w, t, ?_, ht⟩
    rw [List.foldlM_cons, hs']
    exact hw
termination_by left s

/-! ## A writer that waits for itself -/

/-- A party that asks for `Lock` and then nests: it has not asked, or waits, or has what it asked for
    and nests. -/
def SelfLocks (rest : List LockOp) (p : Party) : Prop :=
  p = ⟨.free, .ready (.lock :: rest)⟩ ∨ p = ⟨.free, .waiting rest⟩ ∨
    p.hold = .writing ∧ p.nests = true

/-- A party on its way to waiting for itself stays on it. -/
theorem SelfLocks.does {s : List Party} {rest : List LockOp} {p p' : Party}
    (hrest : nests .writing rest = true) (h : SelfLocks rest p) (hmem : p ∈ s)
    (hdoes : Does s p p') : SelfLocks rest p' := by
  rcases h with rfl | rfl | ⟨hhold, hnests⟩
  · cases hdoes with
    | ask => exact Or.inr (Or.inl rfl)
    | release hop hnext => cases hop
  · cases hdoes with
    | grant hw => exact Or.inr (Or.inr ⟨rfl, hrest⟩)
  · cases hdoes with
    | ask =>
      cases hhold
      exact Or.inr (Or.inr ⟨rfl, rfl⟩)
    | grant hw => exact absurd ((hw _ hmem).symm.trans hhold) nofun
    | rlock hr hnext => exact absurd hhold (hr _ hmem).1
    | release hop hnext =>
      cases hhold
      exact absurd (hnests.symm.trans (nests_writing_release hop hnext)) Bool.noConfusion

/-- It has not finished. -/
theorem SelfLocks.not_finished {rest : List LockOp} {p : Party} (h : SelfLocks rest p) :
    ¬ p.Finished := by
  rcases h with rfl | rfl | ⟨-, hnests⟩
  · nofun
  · nofun
  · exact Party.not_finished_of_nests hnests

/-- **With a writer that waits for itself every run that goes on as long as possible ends in a
    deadlock.** -/
theorem selfLocks_deadlocked {s t : List Party} {w : List Nat} {rest : List LockOp} {i : Nat}
    (hrest : nests .writing rest = true) (hp : s[i]? = some ⟨.free, .ready (.lock :: rest)⟩)
    (h : w.foldlM step s = some t) (hstop : Stopped t) : Deadlocked t := by
  have hinv : ∃ p, t[i]? = some p ∧ SelfLocks rest p := by
    refine foldlM_inv (J := fun u => ∃ p, u[i]? = some p ∧ SelfLocks rest p) ?_
      ⟨_, hp, Or.inl rfl⟩ h
    rintro u j u' ⟨p, hp, hself⟩ hstep
    obtain ⟨q, q', hq, hnext, rfl⟩ := step_eq_some hstep
    by_cases hij : j = i
    · subst hij
      rw [hq] at hp
      cases hp
      obtain ⟨hlt, -⟩ := List.getElem?_eq_some_iff.mp hq
      exact ⟨q', List.getElem?_set_self hlt,
        hself.does hrest (List.mem_of_getElem? hq) (does_of_next hnext)⟩
    · refine ⟨p, ?_, hself⟩
      rw [List.getElem?_set_ne hij]
      exact hp
  obtain ⟨p, hp, hself⟩ := hinv
  exact ⟨⟨p, List.mem_of_getElem? hp, hself.not_finished⟩, hstop.next_eq_none⟩

/-! ## Programs -/

/-- Operations that give up everything they have got, before whatever comes next. -/
def Section (ops : List LockOp) : Prop := ∀ rest, Legal .free rest → Legal .free (ops ++ rest)

theorem Section.nil : Section [] := fun _ h => h

/-- Sections one after the other are a section. -/
theorem Section.append {ops ops' : List LockOp} (h : Section ops) (h' : Section ops') :
    Section (ops ++ ops') := by
  intro rest hrest
  rw [List.append_assoc]
  exact h _ (h' rest hrest)

/-- Any number of them. -/
theorem Section.flatten {l : List (List LockOp)} (h : ∀ ops ∈ l, Section ops) :
    Section l.flatten := by
  induction l with
  | nil => exact Section.nil
  | cons ops l ih =>
    rw [List.flatten_cons]
    exact (h ops List.mem_cons_self).append (ih fun o ho => h o (List.mem_cons_of_mem _ ho))

/-- A section can be run by who holds nothing. -/
theorem Section.legal {ops : List LockOp} (h : Section ops) : Legal .free ops := by
  have hnil := h [] rfl
  rwa [List.append_nil] at hnil

theorem legal_parties {programs : List (List LockOp)} (h : ∀ ops ∈ programs, Legal .free ops) :
    ∀ p ∈ parties programs, p.Legal := by
  intro p hp
  obtain ⟨ops, hops, rfl⟩ := List.mem_map.mp hp
  exact h ops hops

/-- Nobody nests before the start. -/
theorem not_doomed_parties (programs : List (List LockOp)) : ¬ Doomed (parties programs) := by
  rintro ⟨p, hp, hnests, -⟩
  obtain ⟨ops, -, rfl⟩ := List.mem_map.mp hp
  exact Party.hold_of_nests hnests rfl

end InfluxCluster.Lib.RWMutex
