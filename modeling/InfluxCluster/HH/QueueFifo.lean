/-
  Producers and one consumer on a queue, while nothing fails: first in, first out, and when
  `Current` may say that there is nothing.

  A `World` is the queue with the histories that the statements are about: the slices whose
  `Append` returned nil, and the slices the consumer has read and advanced past.  The producers
  append whenever they like, also between the consumer's `Current` and its `Advance`; the consumer
  advances past what its last `Current` returned (`held`), or when the head has nothing left.

  FIFO.  The two histories and the content of the segment files always fit together
  (`fifo_accepted`): old content, then what was accepted, is what was advanced past, then what is
  still on disk.

  HIDDEN DATA.  `Current` looks at the head only.  A segment is dropped when `Advance` reaches its
  end AND another follows; if the tail fills up after its last record was read, the next `Append`
  puts a new segment behind a head that has nothing left, `Current` answers `io.EOF`, and a
  consumer that does not advance after `io.EOF` is stuck in front of data (`current_hides_data`).
  As long as no `Append` rolls over behind a tail that is used up, `io.EOF` means that everything
  has been consumed (`eof_means_consumed`).
-/
import InfluxCluster.HH.QueueOpen
import InfluxCluster.HH.SegmentRun

namespace InfluxCluster.HH

open InfluxCluster.Lib

/-! ## The system -/

/-- What the parties do. -/
inductive Act
  | append (b : Bytes)
  | current
  | advance
  | setMaxSegmentSize (size : Int)
  | tick (t : Time)

/-- The queue and the histories. -/
structure World where
  s : QState
  /-- What the consumer's last `Current` returned, as long as it has not advanced. -/
  held : Option Bytes
  /-- The slices whose `Append` returned nil. -/
  accepted : List Bytes
  /-- The slices the consumer has read and advanced past. -/
  advanced : List Bytes

/-- The head segment has been read to its end. -/
def HeadRead (s : QState) : Prop :=
  ∃ p ∈ s.q.head, (s.heap p).pos = (s.heap p).size - footerSize

/-- The tail segment has been read to its end. -/
def TailRead (s : QState) : Prop :=
  ∃ p ∈ s.q.tail, (s.heap p).pos = (s.heap p).size - footerSize

instance (s : QState) : Decidable (HeadRead s) := inferInstanceAs (Decidable (∃ p ∈ s.q.head, _))

instance (s : QState) : Decidable (TailRead s) := inferInstanceAs (Decidable (∃ p ∈ s.q.tail, _))

/-- What a step does to the queue and the histories. -/
def World.next (w : World) : Act → World
  | .append b =>
    match Queue.append b w.s with
    | .ok _ s => { w with s := s, accepted := w.accepted ++ [b] }
    | .error _ s => { w with s := s }
  | .current =>
    match Queue.current w.s with
    | .ok b s => { w with s := s, held := some b }
    | .error _ s => { w with s := s, held := none }
  | .advance =>
    { w with s := final (Queue.advance w.s), held := none,
             advanced := w.advanced ++ w.held.toList }
  | .setMaxSegmentSize size => { w with s := final (Queue.setMaxSegmentSize size w.s) }
  | .tick t => { w with s := { w.s with disk := w.s.disk.at t } }

/-- When a step is taken: slices are not empty and fit on the disk, a new segment finds a free name,
    and the consumer advances past what it holds or at the end of the head. -/
def Enabled (w : World) : Act → Prop
  | .append b => b ≠ [] ∧ w.s.Roomy b
  | .advance => w.held ≠ none ∨ HeadRead w.s
  | .setMaxSegmentSize size => w.s.Resizable size
  | .current | .tick _ => True

instance (w : World) (a : Act) : Decidable (Enabled w a) :=
  match a with
  | .append _ => inferInstanceAs (Decidable (_ ∧ _))
  | .advance => inferInstanceAs (Decidable (_ ∨ _))
  | .setMaxSegmentSize _ => inferInstanceAs (Decidable (QState.Resizable _ _))
  | .current | .tick _ => isTrue trivial

/-- The world before the first step. -/
def World.start (s : QState) : World := { s := s, held := none, accepted := [], advanced := [] }

/-- The worlds that can be reached from the queue `s₀` by steps that `may` allows. -/
inductive Run (s₀ : QState) (may : World → Act → Prop) : World → Prop
  | start : Run s₀ may (World.start s₀)
  | step {w : World} {a : Act} (hrun : Run s₀ may w) (hmay : may w a) (henabled : Enabled w a) :
      Run s₀ may (w.next a)

/-- Every step of the schedule is allowed and taken. -/
def Schedule (may : World → Act → Prop) : World → List Act → Prop
  | _, [] => True
  | w, a :: acts => may w a ∧ Enabled w a ∧ Schedule may (w.next a) acts

instance decidableSchedule (may : World → Act → Prop) [∀ w a, Decidable (may w a)] :
    ∀ w acts, Decidable (Schedule may w acts)
  | _, [] => isTrue trivial
  | w, a :: acts =>
    have := decidableSchedule may (w.next a) acts
    inferInstanceAs (Decidable (_ ∧ _ ∧ _))

/-- A schedule leads to a world that can be reached. -/
theorem Run.schedule {s₀ : QState} {may : World → Act → Prop} (acts : List Act) :
    ∀ {w : World}, Run s₀ may w → Schedule may w acts →
      Run s₀ may (acts.foldl World.next w) := by
  induction acts with
  | nil => exact fun hrun _ => hrun
  | cons a acts ih =>
    intro w hrun hs
    exact ih (hrun.step hs.1 hs.2.1) hs.2.2

/-- A queue that has just been opened, on a directory whose segment files hold logs. -/
def Opened (s : QState) : Prop :=
  ∃ s' lg, s'.disk.script = [] ∧ Loadable s'.disk lg ∧ Queue.openQueue s' = .ok () s

/-! ## The invariant -/

/-- **The invariant of a run**: the queue is in use, the histories and the chain fit together, and
    what the consumer holds is the item under the first cursor. -/
structure Inv (init : List Bytes) (w : World) (chain : List (Ptr × Log Bytes)) : Prop where
  good : Good w.s chain
  fifo : init ++ w.accepted = w.advanced ++ Chain.content (logs chain)
  held : ∀ b, w.held = some b → Chain.first (logs chain) = some b

/-- The steps that do not roll over behind a tail that is used up. -/
def NoHiddenRoll (w : World) : Act → Prop
  | .append b => ¬ (RollsOver w.s b ∧ TailRead w.s)
  | .setMaxSegmentSize _ => False
  | _ => True

instance (w : World) (a : Act) : Decidable (NoHiddenRoll w a) :=
  match a with
  | .append _ => inferInstanceAs (Decidable (¬ _))
  | .setMaxSegmentSize _ => isFalse id
  | .current | .advance | .tick _ => isTrue trivial

section Inv

variable {s : QState} {chain : List (Ptr × Log Bytes)}

/-- The clock is not part of the invariant. -/
theorem Good.tick (h : Good s chain) (t : Time) :
    Good { s with disk := s.disk.at t } chain :=
  ⟨⟨h.toLinked.of_agree layout_clean (fun _ _ => rfl) (fun _ _ => rfl) (Nat.le_refl _),
    h.segments_eq, h.head_eq, h.tail_eq⟩, ⟨h.owned, h.numeric⟩, h.calm, h.nonempty⟩

theorem Good.logs_ne_nil (h : Good s chain) : logs chain ≠ [] := fun hl =>
  h.nonempty (List.map_eq_nil_iff.mp hl)

/-- The head is read to its end exactly if its log is drained. -/
theorem Good.headRead_iff {c : Ptr × Log Bytes} {cs : List (Ptr × Log Bytes)}
    (h : Good s (c :: cs)) : HeadRead s ↔ c.2.Drained := by
  rw [← (h.holds c List.mem_cons_self).pos_eq_end_iff]
  constructor
  · rintro ⟨p, hp, hpos⟩
    have hc : some c.1 = some p := by rw [← hp]; exact h.head_eq.symm
    cases hc
    exact hpos
  · intro hpos
    exact ⟨c.1, h.head_eq, hpos⟩

theorem Good.tailRead_of_drained {c : Ptr × Log Bytes} {cs : List (Ptr × Log Bytes)}
    (h : Good s (cs ++ [c])) (hd : c.2.Drained) : TailRead s := by
  refine ⟨c.1, ?_, (h.holds c (by simp)).pos_eq_end_iff.mpr hd⟩
  rw [h.tail_eq, List.map_append]
  exact List.getLast?_concat

/-- Rolling over keeps the chain ready unless the tail is used up. -/
theorem Good.ready_roll (h : Good s chain) (hr : Chain.Ready (logs chain)) (ht : ¬ TailRead s) :
    Chain.Ready (Chain.roll (logs chain)) := by
  obtain ⟨cs, c, rfl, -⟩ := h.exists_tail
  rw [logs_append] at hr ⊢
  exact Chain.ready_roll hr fun hd => ht (h.tailRead_of_drained hd)

end Inv

/-! ## One step -/

section Step

variable {init : List Bytes} {w : World} {chain : List (Ptr × Log Bytes)} {a : Act}

/-- Appending goes to the back: it changes neither what the consumer sees nor the order. -/
theorem Inv.stored (h : Inv init w chain) {s' : QState} {b : Bytes} (hb : b ≠ [])
    (hroom : w.s.Roomy b) (hcall : Queue.append b w.s = .ok () s') :
    ∃ chain', Inv init { w with s := s', accepted := w.accepted ++ [b] } chain' ∧
      (NoHiddenRoll w (.append b) → Chain.Ready (logs chain) → Chain.Ready (logs chain')) := by
  have hne := h.good.logs_ne_nil
  have hroll : Chain.roll (logs chain) ≠ [] := by simp [Chain.roll]
  obtain ⟨s'', chain', hg, ⟨he, hlogs⟩ | ⟨e, he, -⟩⟩ := h.good.append hb hroom
  · rw [hcall] at he
    cases he
    refine ⟨chain', ⟨hg, ?_, ?_⟩, ?_⟩
    · have hcontent : Chain.content (logs chain') = Chain.content (logs chain) ++ [b] := by
        rcases hlogs with hl | ⟨-, hl⟩
        · rw [hl, Chain.content_pushLast hne]
        · rw [hl, Chain.content_pushLast hroll, Chain.content_roll]
      rw [hcontent, ← List.append_assoc, h.fifo, List.append_assoc]
    · intro r hr
      have hfirst := h.held r hr
      rcases hlogs with hl | ⟨-, hl⟩
      · rw [hl]; exact Chain.first_pushLast hfirst b
      · rw [hl]; exact Chain.first_pushLast (Chain.first_roll hfirst) b
    · intro hmay hready
      rcases hlogs with hl | ⟨hro, hl⟩
      · rw [hl]; exact Chain.ready_pushLast hready b
      · rw [hl]
        exact Chain.ready_pushLast (h.good.ready_roll hready fun ht => hmay ⟨hro, ht⟩) b
  · rw [hcall] at he
    cases he

/-- The chain is as before, or has an empty log more: the histories still fit. -/
theorem Inv.of_rolled (h : Inv init w chain) {s' : QState} {chain' : List (Ptr × Log Bytes)}
    (hg : Good s' chain')
    (hlogs : logs chain' = logs chain ∨ logs chain' = Chain.roll (logs chain)) :
    Inv init { w with s := s' } chain' := by
  refine ⟨hg, ?_, ?_⟩
  · rcases hlogs with hl | hl
    · rw [hl]; exact h.fifo
    · rw [hl, Chain.content_roll]; exact h.fifo
  · intro r hr
    rcases hlogs with hl | hl
    · rw [hl]; exact h.held r hr
    · rw [hl]; exact Chain.first_roll (h.held r hr)

theorem Inv.refused (h : Inv init w chain) {s' : QState} {b : Bytes} {e : Err} (hb : b ≠ [])
    (hroom : w.s.Roomy b) (hcall : Queue.append b w.s = .error e s') :
    ∃ chain', Inv init { w with s := s' } chain' ∧
      (NoHiddenRoll w (.append b) → Chain.Ready (logs chain) → Chain.Ready (logs chain')) := by
  obtain ⟨s'', chain', hg, ⟨he, -⟩ | ⟨e', he, hlogs⟩⟩ := h.good.append hb hroom
  · rw [hcall] at he
    cases he
  · rw [hcall] at he
    cases he
    refine ⟨chain', h.of_rolled hg (hlogs.imp_right And.right), ?_⟩
    intro hmay hready
    rcases hlogs with hl | ⟨hro, hl⟩
    · rw [hl]; exact hready
    · rw [hl]
      exact h.good.ready_roll hready fun ht => hmay ⟨hro, ht⟩

/-- `Current` shows the item under the first cursor. -/
theorem Inv.read (h : Inv init w chain) {s' : QState} {b : Bytes}
    (hcall : Queue.current w.s = .ok b s') :
    Inv init { w with s := s', held := some b } chain := by
  obtain ⟨c, cs, rfl⟩ := List.exists_cons_of_ne_nil h.good.nonempty
  obtain ⟨s'', hg, ⟨-, he⟩ | ⟨r, rest, hrem, he⟩⟩ := h.good.current
  · rw [hcall] at he
    cases he
  · rcases he with he | ⟨m, n, he⟩
    · rw [hcall] at he
      cases he
      refine ⟨hg, h.fifo, ?_⟩
      intro r' hr'
      cases hr'
      show c.2.remaining.head? = some b
      rw [hrem]
      rfl
    · rw [hcall] at he
      cases he

theorem Inv.nothing (h : Inv init w chain) {s' : QState} {e : Err}
    (hcall : Queue.current w.s = .error e s') :
    Inv init { w with s := s', held := none } chain := by
  obtain ⟨c, cs, rfl⟩ := List.exists_cons_of_ne_nil h.good.nonempty
  have hkeep : ∀ s'', Good s'' (c :: cs) → s'' = s' →
      Inv init { w with s := s', held := none } (c :: cs) := by
    rintro s'' hg rfl
    exact ⟨hg, h.fifo, fun r hr => by cases hr⟩
  obtain ⟨s'', hg, ⟨-, he⟩ | ⟨r, rest, -, he | ⟨m, n, he⟩⟩⟩ := h.good.current
  · rw [hcall] at he
    cases he
    exact hkeep _ hg rfl
  · rw [hcall] at he
    cases he
  · rw [hcall] at he
    cases he
    exact hkeep _ hg rfl

/-- `Advance` takes the item the consumer holds. -/
theorem Inv.advance (h : Inv init w chain) {b : Bytes} (hheld : w.held = some b) :
    ∃ chain', Inv init { w with
        s := final (Queue.advance w.s), held := none, advanced := w.advanced ++ [b] } chain' ∧
      (Chain.Ready (logs chain) → Chain.Ready (logs chain')) := by
  obtain ⟨s', chain', he, hg, hlogs⟩ := h.good.advance
  refine ⟨chain', ⟨by rw [he]; exact hg, ?_, fun r hr => by cases hr⟩, ?_⟩
  · show init ++ w.accepted = w.advanced ++ [b] ++ Chain.content (logs chain')
    rw [h.fifo, Chain.content_of_first (h.held b hheld), hlogs, List.append_assoc]
    rfl
  · intro hready
    rw [hlogs]
    exact Chain.ready_advance hready

/-- `Advance` at the end of the head drops that segment and consumes nothing. -/
theorem Inv.drop (h : Inv init w chain) (hend : HeadRead w.s) :
    ∃ chain', Inv init { w with s := final (Queue.advance w.s), held := none } chain' ∧
      (Chain.Ready (logs chain) → Chain.Ready (logs chain')) := by
  obtain ⟨c, cs, rfl⟩ := List.exists_cons_of_ne_nil h.good.nonempty
  have hd := h.good.headRead_iff.mp hend
  obtain ⟨s', chain', he, hg, hlogs⟩ := h.good.advance
  refine ⟨chain', ⟨by rw [he]; exact hg, ?_, fun r hr => by cases hr⟩, ?_⟩
  · have hcontent : Chain.content (logs chain') = Chain.content (logs (c :: cs)) := by
      rw [hlogs, logs, List.map_cons, Chain.content_advance, Chain.content_cons,
        (Log.remaining_eq_nil_iff c.2).mpr hd]
      rfl
    show init ++ w.accepted = w.advanced ++ Chain.content (logs chain')
    rw [hcontent]
    exact h.fifo
  · intro hready
    rw [hlogs]
    exact Chain.ready_advance hready

/-- **Every step keeps the invariant**, and keeps the chain ready unless it rolls over behind a tail
    that is used up. -/
theorem Inv.step (h : Inv init w chain) (henabled : Enabled w a) :
    ∃ chain', Inv init (w.next a) chain' ∧
      (NoHiddenRoll w a → Chain.Ready (logs chain) → Chain.Ready (logs chain')) := by
  cases a with
  | append b =>
    obtain ⟨hb, hroom⟩ := henabled
    rw [World.next]
    cases hcall : Queue.append b w.s with
    | ok u s' => exact h.stored hb hroom hcall
    | error e s' => exact h.refused hb hroom hcall
  | current =>
    refine ⟨chain, ?_, fun _ hr => hr⟩
    rw [World.next]
    cases hcall : Queue.current w.s with
    | ok b s' => exact h.read hcall
    | error e s' => exact h.nothing hcall
  | advance =>
    have hadv : ∃ chain', Inv init (w.next .advance) chain' ∧
        (Chain.Ready (logs chain) → Chain.Ready (logs chain')) := by
      rw [World.next]
      cases hheld : w.held with
      | some b => exact h.advance hheld
      | none =>
        have hend := henabled.resolve_left fun hne => hne hheld
        rw [Option.toList_none, List.append_nil]
        exact h.drop hend
    obtain ⟨chain', hi, hr⟩ := hadv
    exact ⟨chain', hi, fun _ => hr⟩
  | setMaxSegmentSize size =>
    obtain ⟨s', chain', hg, he, hlogs⟩ := h.good.setMaxSegmentSize henabled
    rw [World.next, he]
    exact ⟨chain', h.of_rolled hg hlogs, fun hmay => hmay.elim⟩
  | tick t => exact ⟨chain, ⟨h.good.tick t, h.fifo, h.held⟩, fun _ hr => hr⟩

end Step

/-! ## Runs -/

/-- `Open` gives a queue in use. -/
theorem Opened.good {s : QState} (h : Opened s) : ∃ chain, Good s chain := by
  obtain ⟨s', lg, hcalm, hload, hopen⟩ := h
  by_cases hne : segmentNames s'.disk.readDir = []
  · rcases open_empty hcalm hne with ⟨s'', chain, he, hg, -⟩ | ⟨e, s'', he⟩
    · rw [hopen] at he
      cases he
      exact ⟨chain, hg⟩
    · rw [hopen] at he
      cases he
  · obtain ⟨s'', chain, he, hg, -⟩ := open_good hcalm hload hne
    rw [hopen] at he
    cases he
    exact ⟨chain, hg⟩

/-- The invariant along a run, from any chain the run starts with. -/
theorem Run.inv {s₀ : QState} {may : World → Act → Prop} {w : World}
    {chain : List (Ptr × Log Bytes)} (hgood : Good s₀ chain) (h : Run s₀ may w) :
    ∃ chain', Inv (Chain.content (logs chain)) w chain' := by
  induction h with
  | start =>
    refine ⟨chain, hgood, ?_, fun b hb => by cases hb⟩
    show Chain.content (logs chain) ++ [] = [] ++ Chain.content (logs chain)
    rw [List.append_nil, List.nil_append]
  | step hrun hmay henabled ih =>
    obtain ⟨chain', hi⟩ := ih
    obtain ⟨chain'', hi', -⟩ := hi.step henabled
    exact ⟨chain'', hi'⟩

/-- **First in, first out.**  In every run on an opened queue, what was in it at the beginning
    followed by the slices whose `Append` returned nil is, in order and byte for byte, what the
    consumer has read and advanced past followed by the records still held in the segment files. -/
theorem fifo_accepted {s₀ : QState} {w : World} (hopen : Opened s₀)
    (hrun : Run s₀ (fun _ _ => True) w) :
    ∃ init rem, content s₀ = some init ∧ content w.s = some rem ∧
      init ++ w.accepted = w.advanced ++ rem := by
  obtain ⟨chain, hgood⟩ := hopen.good
  obtain ⟨chain', hi⟩ := hrun.inv hgood
  exact ⟨_, _, hgood.toRep.content_eq layout_clean, hi.good.toRep.content_eq layout_clean, hi.fifo⟩

/-- A queue that was opened on an empty directory. -/
def emptyQueue : QState := final (Queue.openQueue (newQueue 1000 Disk.empty))

theorem emptyQueue_opened : Opened emptyQueue := by
  refine ⟨newQueue 1000 Disk.empty, fun _ => Log.empty, rfl, ?_,
    eq_ok_of_returned (by decide +kernel)⟩
  intro name f hf
  exact absurd hf (Option.some_ne_none f).symm

theorem fifo_accepted_two : ∃ (s₀ : QState) (w : World) (init rem : List Bytes), Opened s₀ ∧
    w.accepted = [[1], [2]] ∧ w.advanced = [[1]] ∧ content s₀ = some init ∧
    content w.s = some rem ∧ init ++ w.accepted = w.advanced ++ rem := by
  set w := [Act.append [1], .append [2], .current, .advance].foldl World.next
    (World.start emptyQueue) with hw
  have hrun : Run emptyQueue (fun _ _ => True) w := Run.schedule _ Run.start (by decide +kernel)
  obtain ⟨init, rem, hi, hr, hfifo⟩ := fifo_accepted emptyQueue_opened hrun
  exact ⟨emptyQueue, w, init, rem, emptyQueue_opened, by decide +kernel, by decide +kernel, hi, hr, hfifo⟩

/-- The invariant together with a ready chain, along a run that never rolls over behind a tail that
    is used up. -/
theorem Run.ready {s₀ : QState} {w : World} {chain : List (Ptr × Log Bytes)}
    (hgood : Good s₀ chain) (hready : Chain.Ready (logs chain)) (h : Run s₀ NoHiddenRoll w) :
    ∃ chain', Inv (Chain.content (logs chain)) w chain' ∧ Chain.Ready (logs chain') := by
  induction h with
  | start =>
    refine ⟨chain, ⟨hgood, ?_, fun b hb => by cases hb⟩, hready⟩
    show Chain.content (logs chain) ++ [] = [] ++ Chain.content (logs chain)
    rw [List.append_nil, List.nil_append]
  | step hrun hmay henabled ih =>
    obtain ⟨chain', hi, hr⟩ := ih
    obtain ⟨chain'', hi', hr'⟩ := hi.step henabled
    exact ⟨chain'', hi', hr' hmay hr⟩

/-- **`io.EOF` means that everything has been consumed**, on a queue opened on an empty directory,
    as long as no `Append` rolls over while the tail is used up. -/
theorem eof_means_consumed {d : Disk} {maxSize maxSegmentSize : Int} {s₀ s' : QState} {w : World}
    (hdir : d.entries = ∅) (hcalm : d.script = [])
    (hopen : Queue.openQueue (QState.fresh maxSize maxSegmentSize d) = .ok () s₀)
    (hrun : Run s₀ NoHiddenRoll w) (heof : Queue.current w.s = .error .eof s') :
    w.advanced = w.accepted := by
  have hnames : segmentNames (QState.fresh maxSize maxSegmentSize d).disk.readDir = [] := by
    show segmentNames d.readDir = []
    rw [Disk.readDir, hdir]
    rfl
  rcases open_empty (s := QState.fresh maxSize maxSegmentSize d) hcalm hnames with
    ⟨s, chain, he, hgood, hlogs⟩ | ⟨e, s, he⟩
  · rw [hopen] at he
    cases he
    have hready : Chain.Ready (logs chain) := by
      rw [hlogs]; exact Chain.ready_singleton _
    obtain ⟨chain', hi, hr⟩ := hrun.ready hgood hready
    obtain ⟨c, cs, rfl⟩ := List.exists_cons_of_ne_nil hi.good.nonempty
    obtain ⟨s'', -, ⟨hd, -⟩ | ⟨r, rest, -, he' | ⟨m, n, he'⟩⟩⟩ := hi.good.current
    · -- the head is drained, and the chain is ready: nothing is left
      have hnil : Chain.content (logs (c :: cs)) = [] := Chain.head_of_ready hr hd
      have hfifo := hi.fifo
      rw [hnil, List.append_nil, hlogs] at hfifo
      exact hfifo.symm
    · rw [heof] at he'
      cases he'
    · rw [heof] at he'
      cases he'
  · rw [hopen] at he
    cases he

/-- Segments of 17 bytes, one record of one byte each.  The record is read and advanced past; the
    next `Append` rolls over, and from then on `Current` answers `io.EOF`. -/
theorem current_hides_data : ∃ s₀ w s',
    Queue.openQueue (QState.fresh 1000 17 Disk.empty) = .ok () s₀ ∧
    Run s₀ (fun _ _ => True) w ∧ Queue.current w.s = .error .eof s' ∧
    w.accepted = [[1], [2]] ∧ w.advanced = [[1]] := by
  set s₀ := final (Queue.openQueue (QState.fresh 1000 17 Disk.empty)) with hs₀
  set w := [Act.append [1], .current, .advance, .append [2]].foldl World.next (World.start s₀)
    with hw
  have hrun : Run s₀ (fun _ _ => True) w := Run.schedule _ Run.start (by decide +kernel)
  exact ⟨s₀, w, _, eq_ok_of_returned (by decide +kernel), hrun,
    eq_error_of_failure (by decide +kernel), by decide +kernel, by decide +kernel⟩

theorem eof_means_consumed_one : ∃ (s₀ : QState) (w : World) (s' : QState),
    Run s₀ NoHiddenRoll w ∧ Queue.current w.s = .error .eof s' ∧ w.accepted = [[1]] ∧
    w.advanced = w.accepted := by
  set s₀ := final (Queue.openQueue (QState.fresh 1000 17 Disk.empty)) with hs₀
  have hopen : Queue.openQueue (QState.fresh 1000 17 Disk.empty) = .ok () s₀ :=
    eq_ok_of_returned (by decide +kernel)
  set w := [Act.append [1], .current, .advance].foldl World.next (World.start s₀) with hw
  have hrun : Run s₀ NoHiddenRoll w := Run.schedule _ Run.start (by decide +kernel)
  have heof : Queue.current w.s = .error .eof _ := eq_error_of_failure (by decide +kernel)
  exact ⟨s₀, w, _, hrun, heof, by decide +kernel, eof_means_consumed rfl rfl hopen hrun heof⟩

end InfluxCluster.HH
