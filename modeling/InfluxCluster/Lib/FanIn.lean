/-
  FAN-IN: workers that send one result each to a channel, and a collector that wants them all.

  Each of `n` workers runs a `Program` of its own: it asks for something at every step, whatever is
  answered, and comes to a result, nil or an error, that it sends.  The collector receives `n` times
  and returns nil; on the first error it returns that, and once the component is closed it may give
  up instead of receiving.  The workers do not hear of it and go on.

  The channel has room for `n` results, and that is what the pattern rests on:

  * a worker that has a result can send it, whether or not anyone still receives (`Inv.room`);
  * nil is returned only when every worker has sent nil (`Inv.all_of_nil`), and an error only when
    some worker has sent it (`Inv.some_of_err`);
  * nothing goes on for ever (`length_add_measure_le`), and where nothing more can happen every
    result has been sent and the collector has returned (`Inv.returned_of_stuck`).

  The state keeps with every result who has sent it; the collector does not look at that.
-/
import InfluxCluster.Lib.Lockstep
import Mathlib.Algebra.BigOperators.Group.Finset.Basic
import Mathlib.Algebra.Order.BigOperators.Group.Finset
import Mathlib.Data.Fintype.Card

namespace InfluxCluster.Lib.FanIn

/-! ## The machine -/

/-- What a worker runs. -/
structure Program (W α ε : Type) where
  /-- The next state, by what is answered. -/
  next : W → α → Option W
  /-- Nil or an error, at the end. -/
  result : W → Option (Option ε)

/-- What the collector returns. -/
inductive Outcome (ε : Type)
  | nil
  | err (e : ε)
  /-- The component has been closed. -/
  | closing
  deriving DecidableEq

/-- The workers, the channel and the collector. -/
structure State (n : Nat) (W ε : Type) where
  workers : Fin n → W
  /-- Who has sent. -/
  sent : Fin n → Bool
  /-- What is in the channel. -/
  chan : List (Fin n × Option ε)
  /-- What the collector has received. -/
  got : List (Fin n × Option ε)
  closed : Bool
  out : Option (Outcome ε)

/-- What can happen next. -/
inductive Move (n : Nat) (α : Type)
  | work (i : Fin n) (a : α)
  | send (i : Fin n)
  | receive
  /-- The collector has received them all. -/
  | finish
  | close
  /-- The collector sees that the component is closed. -/
  | giveUp
  deriving DecidableEq

variable {n : Nat} {W α ε : Type}

/-- Before anything has happened. -/
def start (workers : Fin n → W) : State n W ε where
  workers := workers
  sent := fun _ => false
  chan := []
  got := []
  closed := false
  out := none

/-- One move, if it is possible. -/
def step (M : Program W α ε) (s : State n W ε) : Move n α → Option (State n W ε)
  | .work i a =>
    if s.sent i then none
    else (M.next (s.workers i) a).map fun w => { s with workers := Function.update s.workers i w }
  | .send i =>
    match M.result (s.workers i) with
    | none => none
    | some r =>
      if s.sent i = false ∧ s.chan.length < n then
        some { s with chan := s.chan ++ [(i, r)], sent := Function.update s.sent i true }
      else none
  | .receive =>
    match s.chan with
    | [] => none
    | p :: rest =>
      if s.out.isNone ∧ s.got.length < n then
        some { s with chan := rest, got := s.got ++ [p], out := p.2.map .err }
      else none
  | .finish => if s.out.isNone ∧ s.got.length = n then some { s with out := some .nil } else none
  | .close => if s.closed then none else some { s with closed := true }
  | .giveUp =>
    if s.closed ∧ s.out.isNone ∧ s.got.length < n then some { s with out := some .closing }
    else none

/-! ## The invariant -/

/-- All results that have been sent. -/
def State.delivered (s : State n W ε) : List (Fin n × Option ε) := s.got ++ s.chan

/-- **What every move keeps**: who has sent has sent once, and what it came to; and the collector
    has returned nothing that it has not received. -/
structure Inv (M : Program W α ε) (s : State n W ε) : Prop where
  nodup : (s.delivered.map Prod.fst).Nodup
  sent_iff : ∀ i, s.sent i = true ↔ i ∈ s.delivered.map Prod.fst
  result_eq : ∀ p ∈ s.delivered, M.result (s.workers p.1) = some p.2
  going : s.out = none → ∀ p ∈ s.got, p.2 = none
  nil : s.out = some .nil → s.got.length = n ∧ ∀ p ∈ s.got, p.2 = none
  err : ∀ e, s.out = some (.err e) → ∃ i, (i, some e) ∈ s.got
  closing : s.out = some .closing → s.closed = true

section Consequences

variable {M : Program W α ε} {s : State n W ε}

theorem inv_start (workers : Fin n → W) : Inv M (start workers : State n W ε) where
  nodup := List.nodup_nil
  sent_iff _ := ⟨fun h => Bool.noConfusion h, fun h => absurd h List.not_mem_nil⟩
  result_eq _ hp := absurd hp List.not_mem_nil
  going _ _ hp := absurd hp List.not_mem_nil
  nil := nofun
  err := nofun
  closing := nofun

/-- Workers without one of them are fewer than all. -/
theorem length_lt_of_not_mem {l : List (Fin n)} (hnodup : l.Nodup) {i : Fin n} (hi : i ∉ l) :
    l.length < n := by
  have hcard := (List.nodup_cons.mpr ⟨hi, hnodup⟩).length_le_card
  rw [List.length_cons, Fintype.card_fin] at hcard
  omega

theorem Inv.not_delivered (h : Inv M s) {i : Fin n} (hi : s.sent i = false) :
    i ∉ s.delivered.map Prod.fst := by
  rw [← h.sent_iff, hi]
  exact Bool.false_ne_true

/-- **There is room for a result that has not been sent.** -/
theorem Inv.room (h : Inv M s) {i : Fin n} (hi : s.sent i = false) : s.chan.length < n := by
  have hlt := length_lt_of_not_mem h.nodup (h.not_delivered hi)
  rw [List.length_map, State.delivered, List.length_append] at hlt
  omega

/-- **Nil is returned only when every worker has sent nil.** -/
theorem Inv.all_of_nil (h : Inv M s) (hout : s.out = some .nil) (i : Fin n) :
    s.sent i = true ∧ M.result (s.workers i) = some none := by
  obtain ⟨hlen, hnil⟩ := h.nil hout
  have hnodup : (s.got.map Prod.fst).Nodup := by
    have hall := h.nodup
    rw [State.delivered, List.map_append] at hall
    exact hall.of_append_left
  have hmem : i ∈ s.got.map Prod.fst := by
    by_contra hi
    have hlt := length_lt_of_not_mem hnodup hi
    rw [List.length_map] at hlt
    omega
  obtain ⟨p, hp, rfl⟩ := List.mem_map.mp hmem
  have hin : p ∈ s.delivered := List.mem_append_left _ hp
  refine ⟨(h.sent_iff _).mpr (List.mem_map_of_mem hin), ?_⟩
  rw [h.result_eq p hin, hnil p hp]

/-- **An error is returned only when some worker has sent it.** -/
theorem Inv.some_of_err (h : Inv M s) {e : ε} (hout : s.out = some (.err e)) :
    ∃ i, s.sent i = true ∧ M.result (s.workers i) = some (some e) := by
  obtain ⟨i, hi⟩ := h.err e hout
  have hin : (i, some e) ∈ s.delivered := List.mem_append_left _ hi
  exact ⟨i, (h.sent_iff i).mpr (List.mem_map_of_mem hin), h.result_eq _ hin⟩

end Consequences

/-! ## One move -/

section Moves

variable {M : Program W α ε} {s s' : State n W ε}

/-- The moves that are possible, and what they do. -/
inductive Does (M : Program W α ε) (s : State n W ε) : Move n α → State n W ε → Prop
  | work {i : Fin n} {a : α} {w : W} (hsent : s.sent i = false)
    (hw : M.next (s.workers i) a = some w) :
    Does M s (.work i a) { s with workers := Function.update s.workers i w }
  | send {i : Fin n} {r : Option ε} (hr : M.result (s.workers i) = some r)
    (hsent : s.sent i = false) :
    Does M s (.send i) { s with
      chan := s.chan ++ [(i, r)], sent := Function.update s.sent i true }
  | receive {p : Fin n × Option ε} {rest : List (Fin n × Option ε)} (hchan : s.chan = p :: rest)
    (hnone : s.out = none) (hlt : s.got.length < n) :
    Does M s .receive { s with chan := rest, got := s.got ++ [p], out := p.2.map .err }
  | finish (hnone : s.out = none) (hlen : s.got.length = n) :
    Does M s .finish { s with out := some .nil }
  | close (hopen : s.closed = false) : Does M s .close { s with closed := true }
  | giveUp (hclosed : s.closed = true) (hnone : s.out = none) :
    Does M s .giveUp { s with out := some .closing }

/-- **Every move is one of these.** -/
theorem does_of_step {m : Move n α} (hs : step M s m = some s') : Does M s m s' := by
  cases m with
  | work i a =>
    rw [step] at hs
    split at hs
    · cases hs
    · next hsent =>
      obtain ⟨w, hw, rfl⟩ := Option.map_eq_some_iff.mp hs
      exact .work (Bool.eq_false_iff.mpr hsent) hw
  | send i =>
    rw [step] at hs
    split at hs
    · cases hs
    · next r hr =>
      obtain ⟨⟨hsent, -⟩, hs⟩ := Option.ite_none_right_eq_some.mp hs
      cases hs
      exact .send hr hsent
  | receive =>
    rw [step] at hs
    split at hs
    · cases hs
    · next p rest hchan =>
      obtain ⟨⟨hnone, hlt⟩, hs⟩ := Option.ite_none_right_eq_some.mp hs
      cases hs
      exact .receive hchan (Option.isNone_iff_eq_none.mp hnone) hlt
  | finish =>
    obtain ⟨⟨hnone, hlen⟩, hs⟩ := Option.ite_none_right_eq_some.mp hs
    cases hs
    exact .finish (Option.isNone_iff_eq_none.mp hnone) hlen
  | close =>
    obtain ⟨hopen, hs⟩ := Option.ite_none_left_eq_some.mp hs
    cases hs
    exact .close (Bool.eq_false_iff.mpr hopen)
  | giveUp =>
    obtain ⟨⟨hclosed, hnone, -⟩, hs⟩ := Option.ite_none_right_eq_some.mp hs
    cases hs
    exact .giveUp hclosed (Option.isNone_iff_eq_none.mp hnone)

theorem Inv.work (h : Inv M s) {i : Fin n} (hsent : s.sent i = false) (w : W) :
    Inv M { s with workers := Function.update s.workers i w } := by
  refine ⟨h.nodup, h.sent_iff, fun p hp => ?_, h.going, h.nil, h.err, h.closing⟩
  -- who has sent works no more
  have hne : p.1 ≠ i := by
    rintro rfl
    exact Bool.eq_false_iff.mp hsent ((h.sent_iff p.1).mpr (List.mem_map_of_mem hp))
  show M.result (Function.update s.workers i w p.1) = _
  rw [Function.update_of_ne hne]
  exact h.result_eq p hp

theorem Inv.send (h : Inv M s) {i : Fin n} {r : Option ε}
    (hr : M.result (s.workers i) = some r) (hsent : s.sent i = false) :
    Inv M { s with chan := s.chan ++ [(i, r)], sent := Function.update s.sent i true } := by
  have hdelivered : (s.got ++ (s.chan ++ [(i, r)])).map Prod.fst
      = s.delivered.map Prod.fst ++ [i] := by
    rw [← List.append_assoc, List.map_append]
    rfl
  refine ⟨?_, fun j => ?_, fun p hp => ?_, h.going, h.nil, h.err, h.closing⟩
  · show ((s.got ++ (s.chan ++ [(i, r)])).map Prod.fst).Nodup
    rw [hdelivered, List.nodup_append_comm, List.singleton_append, List.nodup_cons]
    exact ⟨h.not_delivered hsent, h.nodup⟩
  · show Function.update s.sent i true j = true ↔ j ∈ (s.got ++ (s.chan ++ [(i, r)])).map Prod.fst
    rw [hdelivered, List.mem_append, List.mem_singleton]
    by_cases hj : j = i
    · rw [hj, Function.update_self]
      exact iff_of_true rfl (.inr rfl)
    · rw [Function.update_of_ne hj, h.sent_iff]
      exact ⟨.inl, fun hm => hm.resolve_right hj⟩
  · have hp' : p ∈ s.delivered ++ [(i, r)] := by
      rw [State.delivered, List.append_assoc]
      exact hp
    rcases List.mem_append.mp hp' with hp' | hp'
    · exact h.result_eq p hp'
    · rw [List.mem_singleton.mp hp']
      exact hr

theorem Inv.receive (h : Inv M s) {p : Fin n × Option ε} {rest : List (Fin n × Option ε)}
    (hchan : s.chan = p :: rest) (hnone : s.out = none) :
    Inv M { s with chan := rest, got := s.got ++ [p], out := p.2.map .err } := by
  have hdelivered : s.got ++ [p] ++ rest = s.delivered := by
    rw [State.delivered, hchan, List.append_assoc]
    rfl
  refine ⟨?_, fun j => ?_, fun q hq => ?_, fun hout q hq => ?_, fun hout => ?_, fun e hout => ?_,
    fun hout => ?_⟩
  · show ((s.got ++ [p] ++ rest).map Prod.fst).Nodup
    rw [hdelivered]
    exact h.nodup
  · show s.sent j = true ↔ j ∈ (s.got ++ [p] ++ rest).map Prod.fst
    rw [hdelivered]
    exact h.sent_iff j
  · refine h.result_eq q ?_
    rw [← hdelivered]
    exact hq
  · rcases List.mem_append.mp hq with hq | hq
    · exact h.going hnone q hq
    · rw [List.mem_singleton.mp hq]
      exact Option.map_eq_none_iff.mp hout
  · obtain ⟨e, -, he⟩ := Option.map_eq_some_iff.mp hout
    cases he
  · obtain ⟨e', hp, he⟩ := Option.map_eq_some_iff.mp hout
    cases he
    refine ⟨p.1, List.mem_append_right _ ?_⟩
    rw [← hp]
    exact List.mem_singleton_self p
  · obtain ⟨e, -, he⟩ := Option.map_eq_some_iff.mp hout
    cases he

theorem Inv.step (h : Inv M s) {m : Move n α} (hs : FanIn.step M s m = some s') : Inv M s' := by
  cases does_of_step hs with
  | work hsent hw => exact h.work hsent _
  | send hr hsent => exact h.send hr hsent
  | receive hchan hnone hlt => exact h.receive hchan hnone
  | finish hnone hlen =>
    exact ⟨h.nodup, h.sent_iff, h.result_eq, nofun, fun _ => ⟨hlen, h.going hnone⟩, nofun, nofun⟩
  | close hopen =>
    exact ⟨h.nodup, h.sent_iff, h.result_eq, h.going, h.nil, h.err, fun _ => rfl⟩
  | giveUp hclosed hnone =>
    exact ⟨h.nodup, h.sent_iff, h.result_eq, nofun, nofun, nofun, fun _ => hclosed⟩

/-- Every run keeps the invariant. -/
theorem Inv.run (h : Inv M s) {moves : List (Move n α)} (hs : moves.foldlM (FanIn.step M) s = some s') :
    Inv M s' :=
  foldlM_inv (fun _ _ _ hj hstep => hj.step hstep) h hs

/-- A move changes one worker, by a step of its program, or none. -/
theorem workers_of_step {m : Move n α} (hs : FanIn.step M s m = some s') :
    (∃ i a w, M.next (s.workers i) a = some w ∧ s'.workers = Function.update s.workers i w) ∨
      s'.workers = s.workers := by
  cases does_of_step hs with
  | work hsent hw => exact .inl ⟨_, _, _, hw, rfl⟩
  | _ => exact .inr rfl

/-- **What the steps of every worker keep holds of every worker, whatever the others do.** -/
theorem run_workers {K : Fin n → W → Prop}
    (hK : ∀ i w a w', K i w → M.next w a = some w' → K i w') {moves : List (Move n α)}
    (hs : moves.foldlM (FanIn.step M) s = some s') (h : ∀ i, K i (s.workers i)) :
    ∀ i, K i (s'.workers i) := by
  refine foldlM_inv (J := fun s => ∀ i, K i (s.workers i)) ?_ h hs
  intro s m s' hj hstep j
  rcases workers_of_step hstep with ⟨i, a, w, hw, hworkers⟩ | hworkers
  · rw [hworkers]
    by_cases hji : j = i
    · rw [hji, Function.update_self]
      exact hK i _ a w (hj i) hw
    · rw [Function.update_of_ne hji]
      exact hj j
  · rw [hworkers]
    exact hj j

end Moves

/-! ## Nothing goes on for ever, and nobody waits for ever -/

/-- What worker `i` has still to do: its program, and to send. -/
def State.todo (rank : W → Nat) (s : State n W ε) (i : Fin n) : Nat :=
  rank (s.workers i) + if s.sent i then 0 else 1

/-- A bound on the moves that are left. -/
def State.measure (rank : W → Nat) (s : State n W ε) : Nat :=
  (∑ i, s.todo rank i) + (n - s.got.length) + (if s.out.isNone then 1 else 0)
    + (if s.closed then 0 else 1)

/-- Nothing can happen any more, unless someone closes the component. -/
def Stuck (M : Program W α ε) (s : State n W ε) : Prop := ∀ m, m ≠ .close → step M s m = none

section Progress

variable {M : Program W α ε} {rank : W → Nat} {s s' : State n W ε}

/-- One worker has less to do, the others what they had. -/
theorem sum_todo_lt {i : Fin n} (hi : s'.todo rank i < s.todo rank i)
    (hother : ∀ j, j ≠ i → s'.todo rank j = s.todo rank j) :
    ∑ j, s'.todo rank j < ∑ j, s.todo rank j := by
  refine Finset.sum_lt_sum (fun j _ => ?_) ⟨i, Finset.mem_univ i, hi⟩
  by_cases hj : j = i
  · rw [hj]
    exact hi.le
  · exact (hother j hj).le

/-- **Every move leaves less to do**, if every step of a worker does. -/
theorem measure_lt (hrank : ∀ w a w', M.next w a = some w' → rank w' < rank w) {m : Move n α}
    (hs : step M s m = some s') : s'.measure rank < s.measure rank := by
  cases does_of_step hs with
  | @work i a w hsent hw =>
    have hlt : ∑ j, State.todo rank { s with workers := Function.update s.workers i w } j
        < ∑ j, s.todo rank j := by
      refine sum_todo_lt (i := i) ?_ fun j hj => ?_
      · simpa [State.todo] using hrank _ _ _ hw
      · simp [State.todo, Function.update_of_ne hj]
    simp only [State.measure]
    omega
  | @send i r hr hsent =>
    have hlt : ∑ j, State.todo rank { s with
          chan := s.chan ++ [(i, r)], sent := Function.update s.sent i true } j
        < ∑ j, s.todo rank j := by
      refine sum_todo_lt (i := i) ?_ fun j hj => ?_
      · simp [State.todo, hsent]
      · simp [State.todo, Function.update_of_ne hj]
    simp only [State.measure]
    omega
  | @receive p rest hchan hnone hlt =>
    have hout : (if (p.2.map Outcome.err).isNone then 1 else 0) ≤ 1 := by split <;> omega
    simp only [State.measure, State.todo, List.length_append, List.length_singleton, hnone,
      Option.isNone_none, if_true]
    omega
  | finish hnone hlen =>
    simp only [State.measure, State.todo, hnone, Option.isNone_some]
    simp
  | close hopen =>
    simp only [State.measure, State.todo, hopen]
    simp
  | giveUp hclosed hnone =>
    simp only [State.measure, State.todo, hnone, Option.isNone_some]
    simp

/-- **A run is no longer than what there is to do.** -/
theorem length_add_measure_le (hrank : ∀ w a w', M.next w a = some w' → rank w' < rank w) :
    ∀ (moves : List (Move n α)) {s s' : State n W ε}, moves.foldlM (step M) s = some s' →
      moves.length + s'.measure rank ≤ s.measure rank
  | [], s, s', h => by
    cases h
    exact (Nat.zero_add _).le
  | m :: moves, s, s', h => by
    rw [List.foldlM_cons, Option.bind_eq_bind, Option.bind_eq_some_iff] at h
    obtain ⟨t, hstep, hrest⟩ := h
    have hlt := measure_lt hrank hstep
    have ih := length_add_measure_le hrank moves hrest
    rw [List.length_cons]
    omega

/-- A result that has not been sent can be. -/
theorem Inv.send_isSome (h : Inv M s) {i : Fin n} (hi : s.sent i = false)
    (hr : (M.result (s.workers i)).isSome) : (FanIn.step M s (.send i : Move n α)).isSome := by
  obtain ⟨r, hr⟩ := Option.isSome_iff_exists.mp hr
  rw [FanIn.step, hr]
  dsimp only
  rw [if_pos ⟨hi, h.room hi⟩]
  rfl

/-- **Where nothing more can happen, every result has been sent and the collector has
    returned**, if a worker without a result can take a step. -/
theorem Inv.returned_of_stuck (h : Inv M s)
    (hlive : ∀ w, M.result w = none → ∃ a, (M.next w a).isSome) (hstuck : Stuck M s) :
    (∀ i, s.sent i = true) ∧ s.out.isSome = true := by
  have hsent : ∀ i, s.sent i = true := by
    intro i
    by_contra hi
    have hi : s.sent i = false := Bool.not_eq_true _ ▸ hi
    cases hr : M.result (s.workers i) with
    | none =>
      obtain ⟨a, ha⟩ := hlive _ hr
      obtain ⟨w, hw⟩ := Option.isSome_iff_exists.mp ha
      have hnone := hstuck (.work i a) (by simp)
      rw [FanIn.step, hi, hw] at hnone
      cases hnone
    | some r =>
      have hsome := h.send_isSome hi (by rw [hr]; rfl)
      rw [hstuck (.send i) (by simp)] at hsome
      cases hsome
  refine ⟨hsent, ?_⟩
  by_contra hout
  have hout : s.out.isNone := by simpa using hout
  have hle := h.nodup.length_le_card
  have hall : n ≤ s.delivered.length := by
    have hsub := (List.nodup_finRange n).subperm
      fun i _ => (h.sent_iff i).mp (hsent i)
    simpa using hsub.length_le
  rw [List.length_map, Fintype.card_fin] at hle
  rw [State.delivered, List.length_append] at hle hall
  cases hchan : s.chan with
  | nil =>
    have hnone := hstuck .finish (by simp)
    rw [hchan, List.length_nil] at hle hall
    rw [FanIn.step, if_pos ⟨hout, by omega⟩] at hnone
    cases hnone
  | cons p rest =>
    have hnone := hstuck .receive (by simp)
    rw [hchan, List.length_cons] at hle hall
    rw [FanIn.step, hchan] at hnone
    dsimp only at hnone
    rw [if_pos ⟨hout, by omega⟩] at hnone
    cases hnone

end Progress

end InfluxCluster.Lib.FanIn
