/-
  Opening a node processor, and what a failed `Open` leaves (`hh/node_processor.go`: `Open`,
  `Close`, `Purge`, `WriteShard`).

  `n.done` is the processor's mark for "open": it is what `Open`, `Close`, `Purge` and `WriteShard`
  look at first.  `Open` sets it BEFORE the three steps that can fail, and does not take it back.

  1. **State** — the mark, the queue (nil until the first `Open` that succeeds), and whether the
     goroutine is there.
  2. **Calls** — the four methods and, between them, what the goroutine does to the queue.  How
     creating the directory and opening the queue turn out is part of the call, so that every
     outcome is covered.
  3. **Result** — the mark is set exactly while there is an open queue and a goroutine, nobody uses
     a nil queue, and an `Open` without them tries, IF AND ONLY IF no `Open` that tries fails
     (`processor_open_iff`).

  A queue is open while it has a head and a tail; that the methods of the queue keep both, whatever
  fails in them, is the first half.  `Close` is modelled from the moment its goroutine has ended.
-/
import InfluxCluster.HH.NodeProcessor
import InfluxCluster.HH.QueueSpec
import InfluxCluster.Lib.Lockstep

namespace InfluxCluster.HH

open InfluxCluster.Lib

/-! ## Queues that are open -/

/-- The queue has a head and a tail. -/
def Queue.IsOpen (q : Queue) : Prop := q.head.isSome ∧ q.tail.isSome

/-- Of the state only the queue's own fields matter. -/
def OnQueue (P : Queue → Prop) (s : QState) : Prop := P s.q

namespace Queue

variable {α : Type} {P : Queue → Prop}

theorem keeps_assign {f : Queue → Queue} (h : ∀ q, P q → P (f q)) :
    Keeps (OnQueue P) (assign f) := fun s hs => h s.q hs

theorem keeps_self : Keeps (OnQueue P) self := fun _ hs => hs

/-- A method of a segment does not touch the queue's own fields. -/
theorem keeps_call (p : Ptr) (x : SegM α) : Keeps (OnQueue P) (call p x) := by
  refine keeps_iff.mpr fun s hs => ?_
  rw [call]
  cases x ⟨s.heap p, s.disk⟩ with
  | ok a t => exact hs
  | error e t => exact hs

theorem keeps_deref (p : Option Ptr) : Keeps (OnQueue P) (deref p) := by
  cases p with
  | none => exact fun _ hs => hs
  | some p => exact fun _ hs => hs

theorem keeps_newSegmentPtr (path : FileName) (maxSize : Int) :
    Keeps (OnQueue P) (newSegmentPtr path maxSize) := by
  refine keeps_iff.mpr fun s hs => ?_
  rw [newSegmentPtr]
  cases newSegment path maxSize s.disk with
  | ok l d => exact hs
  | error e d => exact hs

theorem keeps_removeFile (path : FileName) : Keeps (OnQueue P) (removeFile path) := by
  refine keeps_iff.mpr fun s hs => ?_
  rw [removeFile]
  cases s.disk.entries.lookup path with
  | none => exact hs
  | some e => exact hs

theorem keeps_nextSegmentID : Keeps (OnQueue P) nextSegmentID := fun _ hs => hs

theorem keeps_diskUsage : Keeps (OnQueue P) diskUsage := fun _ hs => hs

/-- An open queue with a further segment is open. -/
theorem keeps_addSegment : Keeps (OnQueue IsOpen) addSegment :=
  Triple.bind keeps_nextSegmentID fun _ => Triple.bind keeps_self fun _ =>
    Triple.bind (keeps_newSegmentPtr _ _) fun segment =>
    Triple.bind (keeps_assign fun _ h => h) fun _ => keeps_pure segment

/-- The end of `trimHead`: where there is a segment there is a new head. -/
theorem trimHead_end (head : Option Ptr) :
    Triple (OnQueue fun q => q.IsOpen ∧ q.segments ≠ [])
      (do
        let head ← deref head
        call head Segment.close
        let path ← call head (Segment.path <$> Segment.self)
        removeFile path
        assign fun l => { l with head := l.segments.head? })
      (fun _ => OnQueue IsOpen) (fun _ => OnQueue IsOpen) := by
  have hleft : ∀ (e : Err) (s : QState), OnQueue (fun q => q.IsOpen ∧ q.segments ≠ []) s →
      OnQueue IsOpen s := fun _ _ hs => hs.1
  refine Triple.bind ((keeps_deref _).triple hleft) fun head =>
    Triple.bind ((keeps_call _ _).triple hleft) fun _ =>
    Triple.bind ((keeps_call _ _).triple hleft) fun path =>
    Triple.bind ((keeps_removeFile path).triple hleft) fun _ s hs => ?_
  obtain ⟨⟨-, htail⟩, hne⟩ := hs
  exact ⟨List.isSome_head?.mpr hne, htail⟩

/-- The segment dropped is not the only one. -/
theorem keeps_trimHead : Keeps (OnQueue IsOpen) trimHead := by
  refine keeps_iff.mpr fun s hs => ?_
  rw [trimHead, bind_ok (self_run s)]
  by_cases hlen : s.q.segments.length > 1
  · have hne : s.q.segments.tail ≠ [] := by
      intro he
      have htail := List.length_tail (l := s.q.segments)
      rw [he, List.length_nil] at htail
      omega
    rw [if_pos hlen, bind_ok (assign_run _ _)]
    have hend := trimHead_end s.q.head { s with q := { s.q with segments := s.q.segments.tail } }
      ⟨hs, hne⟩
    split at hend
    · next heq => rw [heq]; exact hend
    · next heq => rw [heq]; exact hend
  · rw [if_neg hlen]
    exact hs

/-- `Append` leaves an open queue open, with or without an error. -/
theorem keeps_append (b : Bytes) : Keeps (OnQueue IsOpen) (append b) := by
  refine Triple.bind keeps_self fun l => ?_
  cases l.tail with
  | none => exact fun _ hs => hs
  | some tail =>
    refine Triple.bind keeps_diskUsage fun usage => ?_
    dsimp only
    split
    · exact fun _ hs => hs
    · refine Triple.bind (keeps_attempt (keeps_call _ _)) fun r => ?_
      split
      · refine Triple.bind keeps_addSegment fun segment =>
          Triple.bind (keeps_assign fun _ h => ⟨h.1, rfl⟩) fun _ => keeps_call _ _
      · exact fun _ hs => hs

theorem keeps_current : Keeps (OnQueue IsOpen) current := by
  refine Triple.bind keeps_self fun l => ?_
  cases l.head with
  | none => exact fun _ hs => hs
  | some head => exact keeps_call _ _

/-- So does `Advance`, which keeps a segment when it trims. -/
theorem keeps_advance : Keeps (OnQueue IsOpen) advance := by
  refine Triple.bind keeps_self fun l => ?_
  cases l.head with
  | none => exact fun _ hs => hs
  | some head =>
    refine Triple.bind (keeps_attempt (keeps_call _ _)) fun r => ?_
    split
    · exact keeps_trimHead
    · exact fun _ hs => hs

/-- So does the loop of `PurgeOlderThan`, turn by turn. -/
theorem keeps_purgeLoop (cutoff : Time) (fuel : Nat) :
    Keeps (OnQueue IsOpen) (purgeLoop cutoff fuel) := by
  induction fuel with
  | zero => exact fun _ hs => hs
  | succ fuel ih =>
    refine Triple.bind keeps_self fun l => Triple.bind (keeps_deref _) fun head =>
      Triple.bind (keeps_call _ _) fun mod => ?_
    split
    · dsimp only
      split
      · exact Triple.bind keeps_addSegment fun _ => Triple.bind keeps_trimHead fun _ => ih
      · exact Triple.bind keeps_trimHead fun _ => ih
    · exact fun _ hs => hs

theorem keeps_purgeOlderThan (fuel : Nat) (when_ : Time) :
    Keeps (OnQueue IsOpen) (purgeOlderThan fuel when_) := by
  refine Triple.bind keeps_self fun l => ?_
  split
  · exact keeps_purgeLoop _ _
  · exact fun _ hs => hs

/-- The end of `Open`: with a head, or a panic. -/
theorem isOpen_of_openEnds {s s' : QState} (h : openEnds s = .ok () s') : s'.q.IsOpen := by
  rw [openEnds, bind_ok (assign_run _ _), bind_ok (self_run _)] at h
  obtain ⟨head, t, hderef, hrest⟩ := ok_of_bind h
  cases hsegs : s.q.segments with
  | nil =>
    simp only [hsegs, List.head?_nil] at hderef
    cases hderef
  | cons p ps =>
    have hopen : OnQueue IsOpen t := by
      simp only [hsegs, List.head?_cons] at hderef
      cases hderef
      exact ⟨rfl, by rw [List.getLast?_cons]; rfl⟩
    obtain ⟨r, u, hattempt, hrest⟩ := ok_of_bind hrest
    have hu := (keeps_attempt (keeps_call head Segment.current)).ok hopen hattempt
    split at hrest
    · exact keeps_trimHead.ok hu hrest
    · exact (keeps_pure (I := OnQueue IsOpen) ()).ok hu hrest

/-- **An `Open` that returns nil has opened the queue.** -/
theorem isOpen_of_openQueue {s s' : QState} (h : openQueue s = .ok () s') : s'.q.IsOpen := by
  obtain ⟨segments, t, -, hrest⟩ := ok_of_bind h
  obtain ⟨-, u, -, hrest⟩ := ok_of_bind hrest
  dsimp only at hrest
  split at hrest
  · obtain ⟨-, v, -, hends⟩ := ok_of_bind hrest
    exact isOpen_of_openEnds hends
  · exact isOpen_of_openEnds hrest

end Queue

/-! ## The processor -/

/-- A queue that has been opened. -/
abbrev OpenQueue := { s : QState // s.q.IsOpen }

/-- How the steps of `Open` that can fail turn out. -/
inductive Attempt
  /-- `os.MkdirAll` fails. -/
  | mkdirAll (e : OSErr)
  /-- `newQueue` or `queue.Open` fails. -/
  | queue (e : Err)
  | opened (q : OpenQueue)

/-- How opening the queue over the directory `d` turns out. -/
def Attempt.ofQueue (maxSize : Int) (d : Disk) : Attempt :=
  match h : Queue.openQueue (newQueue maxSize d) with
  | .ok _ s => .opened ⟨s, Queue.isOpen_of_openQueue h⟩
  | .error e _ => .queue e

/-- How a call ends other than with nil. -/
inductive ProcErr
  /-- "mkdir all: …". -/
  | mkdirAll (e : OSErr)
  | queue (e : Err)
  /-- "node processor is closed". -/
  | closed
  /-- "node processor is open". -/
  | isOpen
  | removeAll (e : OSErr)
  /-- The panic of a method of a nil queue. -/
  | nilQueue
  deriving DecidableEq

/-- `type NodeProcessor struct`: whether `done` is there, the queue, and whether `run` is. -/
structure Processor where
  done : Bool
  queue : Option QState
  running : Bool

abbrev PM := EStateM ProcErr Processor

/-- What happens to the queue between the calls: a method that `run` calls, or another content of
    the directory. -/
inductive Work
  | current
  | advance
  | purgeOlderThan (fuel : Nat) (when_ : Time)
  | outside (d : Disk)

def Work.run : Work → QM Unit
  | current => do
    let _ ← Queue.current
  | advance => Queue.advance
  | purgeOlderThan fuel when_ => Queue.purgeOlderThan fuel when_
  | outside d => fun s => .ok () { s with disk := d }

namespace Processor

variable {Point : Type} (c : PointCodec Point)

/-- The fields of the receiver. -/
def self : PM Processor := fun n => .ok n n

/-- Assign fields of the receiver. -/
def assign (f : Processor → Processor) : PM Unit := fun n => .ok () (f n)

theorem self_run (n : Processor) : self n = .ok n n := rfl

theorem assign_run (f : Processor → Processor) (n : Processor) : assign f n = .ok () (f n) := rfl

/-- Call a method of `n.queue`. -/
def call {α : Type} (x : QM α) : PM α := fun n =>
  match n.queue with
  | none => .error .nilQueue n
  | some q =>
    match x q with
    | .ok a q' => .ok a { n with queue := some q' }
    | .error e q' => .error (.queue e) { n with queue := some q' }

/-- `NewNodeProcessor`. -/
def new : Processor := { done := false, queue := none, running := false }

/-- `Open`. -/
def openProcessor (a : Attempt) : PM Unit := do
  let n ← self
  if n.done then
    -- already open
    return ()
  assign fun n => { n with done := true }
  match a with
  | .mkdirAll e => throw (.mkdirAll e)
  | .queue e => throw (.queue e)
  | .opened q => assign fun n => { n with queue := some q.1, running := true }

/-- `Close`, once the goroutine has ended. -/
def close : PM Unit := do
  let n ← self
  if n.done = false then
    -- already closed
    return ()
  assign fun n => { n with done := false, running := false }
  call Queue.close

/-- `Purge`, with what `os.RemoveAll` answers.  One that answers nil has removed what is in the
    directory; the queue of the processor stays as `Close` has left it. -/
def purge (removed : Option OSErr) : PM Unit := do
  let n ← self
  if n.done then throw .isOpen
  match removed with
  | some e => throw (.removeAll e)
  | none => assign fun n =>
      { n with queue := n.queue.map fun q => { q with disk := q.disk.removeAll } }

/-- `WriteShard`. -/
def writeShard (shardID : UInt64) (points : List Point) : PM Unit := do
  let n ← self
  if n.done = false then throw .closed
  call (Queue.append (marshalWrite c shardID points))

/-- The goroutine, if it is there. -/
def background (w : Work) : PM Unit := do
  let n ← self
  if n.running then call w.run else return ()

end Processor

/-- A call on a processor, or something done in the background. -/
inductive ProcCall (Point : Type)
  | opens (a : Attempt)
  | close
  | purge (removed : Option OSErr)
  | writeShard (shardID : UInt64) (points : List Point)
  | background (w : Work)

section Calls

variable {Point : Type} (c : PointCodec Point)

def ProcCall.run : ProcCall Point → PM Unit
  | opens a => Processor.openProcessor a
  | close => Processor.close
  | purge removed => Processor.purge removed
  | writeShard shardID points => Processor.writeShard c shardID points
  | background w => Processor.background w

namespace Processor

/-- The processor after a call. -/
def after (n : Processor) (x : ProcCall Point) : Processor := final (x.run c n)

/-- There is an open queue, and a goroutine. -/
def Serving (n : Processor) : Prop := (∃ q ∈ n.queue, q.q.IsOpen) ∧ n.running = true

/-- **The mark says what it should.** -/
def Consistent (n : Processor) : Prop := n.done = true ↔ n.Serving

/-- What `Open` answers if it tries. -/
def tried : Attempt → Except ProcErr Unit
  | .mkdirAll e => .error (.mkdirAll e)
  | .queue e => .error (.queue e)
  | .opened _ => .ok ()

/-- **The call is right**: the mark says what it should afterwards, no nil queue is used, and an
    `Open` of a processor that is not open tries. -/
structure Right (n : Processor) (x : ProcCall Point) : Prop where
  consistent : (n.after c x).Consistent
  not_nil : outcome (x.run c n) ≠ .error .nilQueue
  tries : ∀ a, x = .opens a → ¬ n.Serving → outcome (x.run c n) = tried a

/-- The call is not an `Open` that tries and fails. -/
def Succeeds (n : Processor) : ProcCall Point → Prop
  | .opens (.mkdirAll _) => n.done = true
  | .opens (.queue _) => n.done = true
  | .opens (.opened _) => True
  | .close => True
  | .purge _ => True
  | .writeShard _ _ => True
  | .background _ => True

/-- What every call keeps unless an `Open` fails. -/
structure Inv (n : Processor) : Prop where
  consistent : n.Consistent
  running : n.running = true → n.done = true

/-! ## One call -/

variable {c} {n : Processor}

theorem inv_new : Inv new := by
  refine ⟨⟨fun h => Bool.noConfusion h, ?_⟩, fun h => Bool.noConfusion h⟩
  rintro ⟨-, h⟩
  exact Bool.noConfusion h

/-- No goroutine of a processor that is not open runs. -/
theorem Inv.not_running (h : n.Inv) (hd : n.done = false) : n.running = false := by
  by_contra hr
  have hdone := h.running (Bool.eq_true_of_not_eq_false hr)
  rw [hd] at hdone
  exact Bool.noConfusion hdone

/-- A processor without a mark and without a goroutine. -/
theorem inv_closed (hd : n.done = false) (hr : n.running = false) : n.Inv := by
  refine ⟨⟨fun h => ?_, fun h => ?_⟩, fun h => ?_⟩
  · rw [hd] at h
    exact Bool.noConfusion h
  · have hrun := h.2
    rw [hr] at hrun
    exact Bool.noConfusion hrun
  · rw [hr] at h
    exact Bool.noConfusion h

/-- A processor with the mark, an open queue and a goroutine. -/
theorem inv_serving {q : QState} (hd : n.done = true) (hq : n.queue = some q) (ho : q.q.IsOpen)
    (hr : n.running = true) : n.Inv :=
  ⟨⟨fun _ => ⟨⟨q, hq, ho⟩, hr⟩, fun _ => hd⟩, fun _ => hd⟩

/-- A method of an open queue that keeps it open. -/
theorem Inv.call (h : n.Inv) (hd : n.done = true) {x : QM Unit}
    (hx : Keeps (OnQueue Queue.IsOpen) x) :
    (final (call x n)).Inv ∧ outcome (call x n) ≠ .error .nilQueue := by
  obtain ⟨⟨q, hq, ho⟩, hr⟩ := h.consistent.mp hd
  have hkeeps := keeps_iff.mp hx q ho
  rw [Processor.call, show n.queue = some q from hq]
  dsimp only
  cases hrun : x q with
  | ok a q' =>
    rw [hrun] at hkeeps
    exact ⟨inv_serving hd rfl hkeeps hr, fun he => by cases he⟩
  | error e q' =>
    rw [hrun] at hkeeps
    exact ⟨inv_serving hd rfl hkeeps hr, fun he => by cases he⟩

/-- A call other than `Open` is right if it keeps the invariant and uses no nil queue. -/
theorem right_of_inv {x : ProcCall Point} (hx : ∀ a, x ≠ .opens a)
    (h : (n.after c x).Inv ∧ outcome (x.run c n) ≠ .error .nilQueue) :
    n.Right c x ∧ (n.after c x).Inv :=
  ⟨⟨h.1.consistent, h.2, fun a ha => absurd ha (hx a)⟩, h.1⟩

/-- `Close` does what it should, and leaves the processor consistent. -/
theorem Inv.close (h : n.Inv) : n.Right c .close ∧ (n.after c .close).Inv := by
  refine right_of_inv (fun a ha => by cases ha) ?_
  rw [Processor.after, ProcCall.run, Processor.close, bind_ok (self_run n)]
  cases hd : n.done with
  | false =>
    rw [if_pos rfl]
    exact ⟨h, fun he => by cases he⟩
  | true =>
    -- the queue is there; whether closing it fails or not, the mark and the goroutine are gone
    obtain ⟨⟨q, hq, -⟩, -⟩ := h.consistent.mp hd
    rw [if_neg Bool.noConfusion, bind_ok (assign_run _ n), Processor.call,
      show n.queue = some q from hq]
    dsimp only
    cases Queue.close q with
    | ok a q' => exact ⟨inv_closed rfl rfl, fun he => by cases he⟩
    | error e q' => exact ⟨inv_closed rfl rfl, fun he => by cases he⟩

/-- `Purge` does, whether or not the directory can be removed. -/
theorem Inv.purge (h : n.Inv) (removed : Option OSErr) :
    n.Right c (.purge removed) ∧ (n.after c (.purge removed)).Inv := by
  refine right_of_inv (fun a ha => by cases ha) ?_
  rw [Processor.after, ProcCall.run]
  unfold Processor.purge
  rw [bind_ok (self_run n)]
  dsimp only
  cases hd : n.done with
  | false =>
    cases removed with
    | none =>
      -- only the directory of a processor that is closed has changed
      exact ⟨inv_closed hd (h.not_running hd), fun he => by cases he⟩
    | some e => exact ⟨h, fun he => by cases he⟩
  | true => exact ⟨h, fun he => by cases he⟩

/-- `WriteShard` does: the queue is touched only if the processor is open. -/
theorem Inv.writeShard (h : n.Inv) (shardID : UInt64) (points : List Point) :
    n.Right c (.writeShard shardID points) ∧ (n.after c (.writeShard shardID points)).Inv := by
  refine right_of_inv (fun a ha => by cases ha) ?_
  rw [Processor.after, ProcCall.run, Processor.writeShard,
    bind_ok (self_run n)]
  cases hd : n.done with
  | false => exact ⟨h, fun he => by cases he⟩
  | true =>
    dsimp only
    rw [if_neg Bool.noConfusion]
    exact h.call hd (Queue.keeps_append _)

/-- What the goroutine does to the queue leaves it open. -/
theorem keeps_work (w : Work) : Keeps (OnQueue Queue.IsOpen) w.run := by
  cases w with
  | current => exact Triple.bind Queue.keeps_current fun _ => keeps_pure ()
  | advance => exact Queue.keeps_advance
  | purgeOlderThan fuel when_ => exact Queue.keeps_purgeOlderThan fuel when_
  | outside d => exact fun _ hs => hs

/-- The goroutine does, as long as it runs. -/
theorem Inv.background (h : n.Inv) (w : Work) :
    n.Right c (.background w) ∧ (n.after c (.background w)).Inv := by
  refine right_of_inv (fun a ha => by cases ha) ?_
  rw [Processor.after, ProcCall.run, Processor.background,
    bind_ok (self_run n)]
  cases hr : n.running with
  | false => exact ⟨h, fun he => by cases he⟩
  | true =>
    rw [if_pos rfl]
    exact h.call (h.running hr) (keeps_work w)

/-- An `Open` of a processor that is open does nothing. -/
theorem Inv.opens_again (h : n.Inv) (hd : n.done = true) (a : Attempt) :
    n.Right c (.opens a) ∧ (n.after c (.opens a)).Inv := by
  have hrun : ProcCall.run c (.opens a) n = .ok () n := by
    rw [ProcCall.run]
    unfold openProcessor
    rw [bind_ok (self_run n), if_pos hd]
    rfl
  have hafter : n.after c (.opens a) = n := by rw [Processor.after, hrun, final_ok]
  refine ⟨⟨?_, ?_, fun b _ hs => absurd (h.consistent.mp hd) hs⟩, ?_⟩
  · rw [hafter]
    exact h.consistent
  · rw [hrun]
    exact fun he => by cases he
  · rw [hafter]
    exact h

/-- An `Open` that tries; the mark is set first. -/
theorem opens_eq (hd : n.done = false) (a : Attempt) :
    ProcCall.run c (.opens a) n =
      match a with
      | .mkdirAll e => .error (.mkdirAll e) { n with done := true }
      | .queue e => .error (.queue e) { n with done := true }
      | .opened q => .ok () { done := true, queue := some q.1, running := true } := by
  rw [ProcCall.run]
  unfold openProcessor
  rw [bind_ok (self_run n), if_neg (by rw [hd]; exact Bool.noConfusion)]
  cases a with
  | mkdirAll e => rfl
  | queue e => rfl
  | opened q => rfl

/-- `Open` of a closed processor whose queue can be opened. -/
theorem opens_opened (hd : n.done = false) (q : OpenQueue) :
    n.Right c (.opens (.opened q)) ∧ (n.after c (.opens (.opened q))).Inv := by
  have hrun := opens_eq (c := c) hd (.opened q)
  have hinv : (n.after c (.opens (.opened q))).Inv := by
    rw [Processor.after, hrun]
    exact inv_serving rfl rfl q.2 rfl
  refine ⟨⟨hinv.consistent, ?_, ?_⟩, hinv⟩
  · rw [hrun]
    exact fun he => by cases he
  · rintro a ha -
    cases ha
    rw [hrun]
    rfl

/-- **A failed `Open` leaves the mark**, without the goroutine. -/
theorem Inv.not_right_of_failed (h : n.Inv) (hd : n.done = false) {a : Attempt}
    (ha : ∀ q, a ≠ .opened q) : ¬ n.Right c (.opens a) := by
  intro hright
  have hafter : n.after c (.opens a) = { n with done := true } := by
    rw [Processor.after, opens_eq hd]
    cases a with
    | mkdirAll e => rfl
    | queue e => rfl
    | opened q => exact absurd rfl (ha q)
  have hcons := hright.consistent
  rw [hafter] at hcons
  have hrun : n.running = true := (hcons.mp rfl).2
  rw [h.not_running hd] at hrun
  exact Bool.noConfusion hrun

/-- `Open`, if it does not fail. -/
theorem Inv.opens (h : n.Inv) {a : Attempt} (hs : n.Succeeds (.opens a : ProcCall Point)) :
    n.Right c (.opens a) ∧ (n.after c (.opens a)).Inv := by
  cases hd : n.done with
  | true => exact h.opens_again hd a
  | false =>
    cases a with
    | opened q => exact opens_opened hd q
    | mkdirAll e => exact Bool.noConfusion (hd.symm.trans hs)
    | queue e => exact Bool.noConfusion (hd.symm.trans hs)

/-- **One call**, whichever it is. -/
theorem Inv.after (h : n.Inv) {x : ProcCall Point} (hs : n.Succeeds x) :
    n.Right c x ∧ (n.after c x).Inv := by
  cases x with
  | opens a => exact h.opens hs
  | close => exact h.close
  | purge removed => exact h.purge removed
  | writeShard shardID points => exact h.writeShard shardID points
  | background w => exact h.background w

/-- **One call is right exactly if it is no `Open` that tries and fails.** -/
theorem Inv.right_iff (h : n.Inv) {x : ProcCall Point} : n.Right c x ↔ n.Succeeds x := by
  refine ⟨fun hright => ?_, fun hs => (h.after hs).1⟩
  cases x with
  | opens a =>
    cases a with
    | opened q => trivial
    | mkdirAll e =>
      by_contra hd
      exact h.not_right_of_failed (Bool.eq_false_of_not_eq_true hd) (fun q hq => by cases hq) hright
    | queue e =>
      by_contra hd
      exact h.not_right_of_failed (Bool.eq_false_of_not_eq_true hd) (fun q hq => by cases hq) hright
  | close => trivial
  | purge removed => trivial
  | writeShard shardID points => trivial
  | background w => trivial

end Processor

/-! ## Runs -/

/-- **When `n.done` can be trusted.**  Over any sequence of calls on a new processor, `n.done` is
    there exactly while there is an open queue and a goroutine, no call uses a nil queue, and every
    `Open` of a processor without them tries — if and only if every `Open` that finds `n.done` nil
    succeeds in creating the directory and opening the queue. -/
theorem processor_open_iff (c : PointCodec Point) (calls : List (ProcCall Point)) :
    Throughout (Processor.after c) (Processor.Right c) .new calls
      ↔ Throughout (Processor.after c) Processor.Succeeds .new calls :=
  throughout_iff_of_inv (J := Processor.Inv) (F := fun _ _ => True)
    (fun _ _ h _ hs => (h.after hs).2) (fun _ _ h _ => h.right_iff) Processor.inv_new
    (fun _ _ _ => trivial)

/-- Points without a text. -/
def mutePoints : PointCodec Unit := { string := fun _ => [], parsePoints := fun _ => some [] }

example : ((Processor.new.after mutePoints (.opens (.ofQueue 1000 Disk.empty))).after mutePoints
    (.writeShard 1 [])).running = true := rfl

/-- An `Open` that finds its directory read-only. -/
def failedOpen : Processor := Processor.new.after mutePoints (.opens (.mkdirAll .failed))

/-- **A failed `Open` leaves the processor half open**: the next `Open` says that all is well
    whatever it would meet, without trying; `WriteShard` and `Close` use the nil queue. -/
theorem failed_open_is_not_closed :
    ¬ failedOpen.Serving ∧ failedOpen.done = true ∧
      (∀ a, (ProcCall.opens a).run mutePoints failedOpen = .ok () failedOpen) ∧
      outcome ((ProcCall.writeShard 1 []).run mutePoints failedOpen) = .error .nilQueue ∧
      outcome (ProcCall.close.run mutePoints failedOpen) = .error .nilQueue := by
  refine ⟨?_, rfl, fun a => rfl, rfl, rfl⟩
  rintro ⟨-, hr⟩
  exact Bool.noConfusion hr

end Calls

end InfluxCluster.HH
