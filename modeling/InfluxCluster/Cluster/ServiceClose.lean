/-
  Closing the cluster service (`cluster/service.go`: `serve`, `handleConn`, `Close`).

  `Close` closes the listener and the channel `closing`, and waits for the goroutines: the one in
  `serve`, and one for each connection.  Nobody is told to stop; they find out.  `serve` looks at
  the channel before it accepts, and a closed listener makes `Accept` fail.  A goroutine that serves
  a connection sits in a READ, and does not look at the channel at all: beside it there is a second
  one, a WATCHER, that closes the connection when the channel is closed (or its own handler has
  returned).  Nobody waits for the watchers.

  *  A second `Close` closes the channel a second time, which panics.
  *  With one `Close` the wait always ends: each step uses up WORK, so a run comes to an end if
     nobody sends anything more, and where it ends all goroutines have returned and all connections
     are closed (`close_completes`).

  The listener keeps to what `net.Listener` promises: a closed one accepts nothing, and an `Accept`
  that is waiting fails.  Panics of the handlers are those of `Handlers`, and are left out.
-/
import Mathlib.Data.List.Basic
import InfluxCluster.Lib.Lockstep

namespace InfluxCluster.Cluster.Closing

open InfluxCluster.Lib

/-! ## The goroutines -/

/-- A message, as far as the loop of `handleConn` is concerned: it goes on after it, or returns;
    `processCreateIteratorRequest` also closes the connection. -/
inductive Message
  | goesOn
  | createIterator
  | fieldDimensions
  deriving DecidableEq

/-- Where the goroutine of a connection is. -/
inductive HandlerPC
  | reading
  | processing (m : Message)
  | returned
  deriving DecidableEq

/-- A connection: its goroutine, whether its watcher has returned, whether it is closed, what has
    been sent to it and not been read, and whether the other side has hung up. -/
structure Conn where
  handler : HandlerPC
  watched : Bool
  closed : Bool
  pending : List Message
  hungUp : Bool
  deriving DecidableEq

/-- Where `serve` is. -/
inductive ServePC
  | head
  | accepting
  | returned
  deriving DecidableEq

/-- Where a call of `Close` is. -/
inductive ClosePC
  | start
  | listenerClosed
  | waiting
  | returned
  deriving DecidableEq

/-- The service after `Open`, with the calls of `Close`. -/
structure State where
  listening : Bool
  closing : Bool
  serve : ServePC
  conns : List Conn
  closers : List ClosePC
  panicked : Bool
  deriving DecidableEq

/-- A step of one of the goroutines or of a call of `Close`; or somebody calls `Close`, connects,
    sends a message or hangs up. -/
inductive Op
  /-- `serve` looks at the channel. -/
  | check
  /-- `Accept` fails; whether the error says "connection closed". -/
  | acceptError (connectionClosed : Bool)
  | read (i : Nat)
  | process (i : Nat)
  | watch (i : Nat)
  | closeListener (j : Nat)
  | closeClosing (j : Nat)
  | wait (j : Nat)
  | callClose
  | accept
  | send (i : Nat) (m : Message)
  | hangUp (i : Nat)
  deriving DecidableEq

/-- The step is one of the service, or somebody connects. -/
def Op.Own : Op → Prop
  | .check | .accept | .acceptError _ | .read _ | .process _ | .watch _ | .closeListener _
  | .closeClosing _ | .wait _ => True
  | .callClose | .send _ _ | .hangUp _ => False

/-- `Open`. -/
def start : State :=
  { listening := true, closing := false, serve := .head, conns := [], closers := [],
    panicked := false }

/-- The counter of the `WaitGroup` is zero. -/
def State.Quiet (s : State) : Prop :=
  s.serve = .returned ∧ ∀ c ∈ s.conns, c.handler = .returned

instance (s : State) : Decidable s.Quiet := inferInstanceAs (Decidable (_ ∧ _))

/-- The handler reads a type and what belongs to it; `none` while there is nothing to read. -/
def Conn.read (c : Conn) : Option Conn :=
  match c.handler with
  | .reading =>
    if c.closed then some { c with handler := .returned }
    else
      match c.pending with
      | m :: rest => some { c with handler := .processing m, pending := rest }
      | [] => if c.hungUp then some { c with handler := .returned } else none
  | _ => none

/-- The handler is done with a message. -/
def Conn.process (c : Conn) : Option Conn :=
  match c.handler with
  | .processing .goesOn => some { c with handler := .reading }
  | .processing .createIterator => some { c with handler := .returned, closed := true }
  | .processing .fieldDimensions => some { c with handler := .returned }
  | _ => none

/-- The watcher wakes up and closes the connection. -/
def Conn.watch (closing : Bool) (c : Conn) : Option Conn :=
  if c.watched = false ∧ (closing = true ∨ c.handler = .returned) then
    some { c with watched := true, closed := true }
  else none

/-- Something happens to the connection `i`. -/
def State.onConn (s : State) (i : Nat) (f : Conn → Option Conn) : Option State :=
  match s.conns[i]? with
  | none => none
  | some c => (f c).map fun c' => { s with conns := s.conns.set i c' }

/-- One step; `none` if nobody can take it. -/
def Op.step (s : State) (op : Op) : Option State :=
  if s.panicked then none
  else
    match op with
    | .check =>
      match s.serve with
      | .head => some { s with serve := if s.closing then .returned else .accepting }
      | _ => none
    | .accept =>
      match s.serve, s.listening with
      | .accepting, true =>
        some { s with
          serve := .head
          conns := s.conns ++ [{ handler := .reading, watched := false, closed := false,
                                 pending := [], hungUp := false }] }
      | _, _ => none
    | .acceptError connectionClosed =>
      match s.serve with
      | .accepting => some { s with serve := if connectionClosed then .returned else .head }
      | _ => none
    | .read i => s.onConn i Conn.read
    | .process i => s.onConn i Conn.process
    | .watch i => s.onConn i (Conn.watch s.closing)
    | .send i m => s.onConn i fun c => some { c with pending := c.pending ++ [m] }
    | .hangUp i => s.onConn i fun c => some { c with hungUp := true }
    | .callClose => some { s with closers := s.closers ++ [.start] }
    | .closeListener j =>
      match s.closers[j]? with
      | some .start =>
        some { s with listening := false, closers := s.closers.set j .listenerClosed }
      | _ => none
    | .closeClosing j =>
      match s.closers[j]? with
      | some .listenerClosed =>
        if s.closing then some { s with panicked := true }
        else some { s with closing := true, closers := s.closers.set j .waiting }
      | _ => none
    | .wait j =>
      match s.closers[j]? with
      | some .waiting =>
        if s.Quiet then some { s with closers := s.closers.set j .returned } else none
      | _ => none

/-! ## Work -/

/-- The sum over a list. -/
def total {α : Type} (w : α → Nat) : List α → Nat
  | [] => 0
  | a :: l => w a + total w l

/-- What a connection still has to do. -/
def Conn.work (c : Conn) : Nat :=
  (match c.handler with
    | .reading => 2 * c.pending.length + 1
    | .processing _ => 2 * c.pending.length + 2
    | .returned => 0) + if c.watched then 0 else 1

def ServePC.work : ServePC → Nat
  | .accepting => 2
  | .head => 1
  | .returned => 0

def ClosePC.work : ClosePC → Nat
  | .start => 3
  | .listenerClosed => 2
  | .waiting => 1
  | .returned => 0

/-- What is left to do, once the channel is closed. -/
def State.work (s : State) : Nat :=
  s.serve.work + total Conn.work s.conns + total ClosePC.work s.closers +
    if s.panicked then 0 else 1

/-- If one of them has less to do, all together have. -/
theorem total_set_lt {α : Type} {w : α → Nat} {l : List α} {i : Nat} {a b : α}
    (hi : l[i]? = some a) (hw : w b < w a) : total w (l.set i b) < total w l := by
  induction l generalizing i with
  | nil => cases hi
  | cons x l ih =>
    cases i with
    | zero =>
      cases hi
      exact Nat.add_lt_add_right hw _
    | succ i => exact Nat.add_lt_add_left (ih hi) _

/-- Reading brings a connection nearer to its end. -/
theorem Conn.work_read {c c' : Conn} (h : c.read = some c') : c'.work < c.work := by
  unfold Conn.read at h
  split at h
  · next hpc =>
    split at h
    · cases h
      simp only [Conn.work, hpc]
      omega
    · split at h
      · next hpending =>
        cases h
        simp only [Conn.work, hpc, hpending, List.length_cons]
        omega
      · split at h
        · cases h
          simp only [Conn.work, hpc]
          omega
        · cases h
  · cases h

/-- So does serving a request. -/
theorem Conn.work_process {c c' : Conn} (h : c.process = some c') : c'.work < c.work := by
  unfold Conn.process at h
  split at h
  · next hpc =>
    cases h
    simp only [Conn.work, hpc]
    omega
  · next hpc =>
    cases h
    simp only [Conn.work, hpc]
    omega
  · next hpc =>
    cases h
    simp only [Conn.work, hpc]
    omega
  · cases h

/-- So does the watcher, which closes it. -/
theorem Conn.work_watch {closing : Bool} {c c' : Conn} (h : c.watch closing = some c') :
    c'.work < c.work := by
  obtain ⟨⟨hw, -⟩, h⟩ := Option.ite_none_right_eq_some.mp h
  cases h
  simp only [Conn.work, hw]
  exact Nat.add_lt_add_left (by decide) _

/-! ## What holds all along -/

/-- The call has closed the channel. -/
def ClosePC.past : ClosePC → Bool
  | .waiting | .returned => true
  | .start | .listenerClosed => false

/-- **The invariant.** -/
structure Inv (s : State) : Prop where
  /-- A call that has begun has closed the listener, and the channel is closed after that. -/
  listener : ∀ pc ∈ s.closers, pc ≠ .start → s.listening = false
  /-- One call closes the channel. -/
  once : s.closers.countP ClosePC.past = if s.closing then 1 else 0
  watched : ∀ c ∈ s.conns, c.watched = true → c.closed = true
  /-- A call that has returned has waited for everybody. -/
  quiet : .returned ∈ s.closers → s.Quiet
  panicked : s.panicked = true → 2 ≤ s.closers.length

theorem inv_start : Inv start where
  listener := fun _ hpc => absurd hpc List.not_mem_nil
  once := rfl
  watched := fun _ hc => absurd hc List.not_mem_nil
  quiet := fun h => absurd h List.not_mem_nil
  panicked := fun h => Bool.noConfusion h

/-- While `serve` runs no call has returned. -/
theorem Inv.not_returned {s : State} (h : Inv s) (hserve : s.serve ≠ .returned) :
    .returned ∉ s.closers :=
  fun hr => hserve (h.quiet hr).1

/-- The channel is closed after the listener. -/
theorem Inv.not_listening {s : State} (h : Inv s) (hc : s.closing = true) : s.listening = false := by
  have hone : s.closers.countP ClosePC.past = 1 := by rw [h.once, if_pos hc]
  obtain ⟨pc, hpc, hpast⟩ := List.countP_pos_iff.mp (hone ▸ Nat.one_pos)
  refine h.listener pc hpc ?_
  rintro rfl
  exact Bool.noConfusion hpast

/-- How many calls have closed the channel, after one of them has gone on. -/
theorem countP_past_set {l : List ClosePC} {j : Nat} {pc : ClosePC} (hj : l[j]? = some pc)
    (pc' : ClosePC) :
    (l.set j pc').countP ClosePC.past + (if pc.past then 1 else 0)
      = l.countP ClosePC.past + if pc'.past then 1 else 0 := by
  induction l generalizing j with
  | nil => cases hj
  | cons x l ih =>
    cases j with
    | zero =>
      cases hj
      simp only [List.set_cons_zero, List.countP_cons]
      omega
    | succ j =>
      have := ih hj
      simp only [List.set_cons_succ, List.countP_cons]
      omega

/-- Something that happens to a connection leaves the rest alone. -/
theorem onConn_eq {s s' : State} {i : Nat} {f : Conn → Option Conn} (h : s.onConn i f = some s') :
    ∃ c c', s.conns[i]? = some c ∧ f c = some c' ∧ s' = { s with conns := s.conns.set i c' } := by
  unfold State.onConn at h
  split at h
  · cases h
  · next c hc =>
    obtain ⟨c', hc', rfl⟩ := Option.map_eq_some_iff.mp h
    exact ⟨c, c', hc, hc', rfl⟩

/-- What may happen to a connection: a watcher that has returned has closed it, and a handler that
    has returned does not begin again. -/
structure Conn.Later (c c' : Conn) : Prop where
  watched : (c.watched = true → c.closed = true) → c'.watched = true → c'.closed = true
  returned : c.handler = .returned → c'.handler = .returned

theorem Conn.later_read {c c' : Conn} (h : c.read = some c') : c.Later c' := by
  unfold Conn.read at h
  split at h
  · next hpc =>
    have hno : c.handler ≠ .returned := fun hr => HandlerPC.noConfusion (hpc.symm.trans hr)
    split at h
    · cases h
      exact ⟨fun hw => hw, fun hr => absurd hr hno⟩
    · split at h
      · cases h
        exact ⟨fun hw => hw, fun hr => absurd hr hno⟩
      · obtain ⟨-, h⟩ := Option.ite_none_right_eq_some.mp h
        cases h
        exact ⟨fun hw => hw, fun hr => absurd hr hno⟩
  · cases h

theorem Conn.later_process {c c' : Conn} (h : c.process = some c') : c.Later c' := by
  unfold Conn.process at h
  split at h
  · next hpc =>
    cases h
    exact ⟨fun hw => hw, fun hr => HandlerPC.noConfusion (hpc.symm.trans hr)⟩
  · cases h
    exact ⟨fun _ _ => rfl, fun _ => rfl⟩
  · cases h
    exact ⟨fun hw => hw, fun _ => rfl⟩
  · cases h

theorem Conn.later_watch {closing : Bool} {c c' : Conn} (h : c.watch closing = some c') :
    c.Later c' := by
  obtain ⟨-, h⟩ := Option.ite_none_right_eq_some.mp h
  cases h
  exact ⟨fun _ _ => rfl, fun hr => hr⟩

/-- A step of one connection. -/
theorem Inv.onConn {s s' : State} (h : Inv s) {i : Nat} {f : Conn → Option Conn}
    (hf : ∀ c c', f c = some c' → c.Later c') (hstep : s.onConn i f = some s') : Inv s' := by
  obtain ⟨c, c', hc, hc', rfl⟩ := onConn_eq hstep
  have hmem : c ∈ s.conns := List.mem_of_getElem? hc
  have hlater := hf c c' hc'
  refine ⟨h.listener, h.once, fun d hd => ?_, fun hr => ?_, h.panicked⟩
  · rcases List.mem_or_eq_of_mem_set hd with hd | rfl
    · exact h.watched d hd
    · exact hlater.watched (h.watched c hmem)
  · obtain ⟨hserve, hquiet⟩ := h.quiet hr
    refine ⟨hserve, fun d hd => ?_⟩
    rcases List.mem_or_eq_of_mem_set hd with hd | rfl
    · exact hquiet d hd
    · exact hlater.returned (hquiet c hmem)

/-- `serve` is somewhere else, and may have accepted a connection. -/
theorem Inv.serve {s : State} (h : Inv s) (hserve : s.serve ≠ .returned) (pc : ServePC)
    (fresh : List Conn) (hfresh : ∀ c ∈ fresh, c.watched = false) :
    Inv { s with serve := pc, conns := s.conns ++ fresh } where
  listener := h.listener
  once := h.once
  watched := fun c hc hw => by
    rcases List.mem_append.mp hc with hc | hc
    · exact h.watched c hc hw
    · rw [hfresh c hc] at hw
      cases hw
  quiet := fun hr => absurd hr (h.not_returned hserve)
  panicked := h.panicked

/-- A call of `Close` goes on by a step that may close the listener and the channel. -/
theorem Inv.closer {s : State} (h : Inv s) {j : Nat} {pc pc' : ClosePC} {listening closing : Bool}
    (hj : s.closers[j]? = some pc) (hl : listening = false)
    (hpast : ((if s.closing then 1 else 0) + if pc'.past then 1 else 0)
      = (if closing then 1 else 0) + if pc.past then 1 else 0)
    (hquiet : pc' = .returned → s.Quiet) :
    Inv { s with listening := listening, closing := closing, closers := s.closers.set j pc' } where
  listener := fun _ _ _ => hl
  once := by
    show (s.closers.set j pc').countP ClosePC.past = if closing then 1 else 0
    have hcount := countP_past_set hj pc'
    have honce := h.once
    omega
  watched := h.watched
  quiet := fun hr => by
    rcases List.mem_or_eq_of_mem_set hr with hr | hr
    · exact h.quiet hr
    · exact hquiet hr.symm
  panicked := fun hp => by simpa only [List.length_set] using h.panicked hp

/-- The channel is closed while another call is about to close it: there are two of them. -/
theorem Inv.two_closers {s : State} (h : Inv s) {j : Nat} (hj : s.closers[j]? = some .listenerClosed)
    (hc : s.closing = true) : 2 ≤ s.closers.length := by
  have hone : s.closers.countP ClosePC.past = 1 := by rw [h.once, if_pos hc]
  have hother : 0 < s.closers.countP fun pc => !pc.past :=
    List.countP_pos_iff.mpr ⟨_, List.mem_of_getElem? hj, rfl⟩
  have := List.length_eq_countP_add_countP ClosePC.past (l := s.closers)
  simp only [Bool.not_eq_true, Bool.decide_eq_false] at this
  omega

/-- **One step**, whoever takes it. -/
theorem Inv.step {s s' : State} {op : Op} (h : Inv s) (hstep : op.step s = some s') : Inv s' := by
  unfold Op.step at hstep
  split at hstep
  · cases hstep
  · next hp =>
    cases op with
    | check =>
      dsimp only at hstep
      split at hstep
      · next hserve =>
        cases hstep
        have := h.serve (hserve ▸ ServePC.noConfusion) (if s.closing then .returned else .accepting)
          [] (fun _ hc => absurd hc List.not_mem_nil)
        rwa [List.append_nil] at this
      · cases hstep
    | accept =>
      dsimp only at hstep
      split at hstep
      · next hserve _ =>
        cases hstep
        exact h.serve (hserve ▸ ServePC.noConfusion) .head _
          (fun c hc => List.mem_singleton.mp hc ▸ rfl)
      · cases hstep
    | acceptError b =>
      dsimp only at hstep
      split at hstep
      · next hserve =>
        cases hstep
        have := h.serve (hserve ▸ ServePC.noConfusion) (if b then .returned else .head)
          [] (fun _ hc => absurd hc List.not_mem_nil)
        rwa [List.append_nil] at this
      · cases hstep
    | read i => exact h.onConn (fun _ _ => Conn.later_read) hstep
    | process i => exact h.onConn (fun _ _ => Conn.later_process) hstep
    | watch i => exact h.onConn (fun _ _ => Conn.later_watch) hstep
    | send i m =>
      refine h.onConn (fun c c' hc => ?_) hstep
      cases hc
      exact ⟨fun hw => hw, fun hr => hr⟩
    | hangUp i =>
      refine h.onConn (fun c c' hc => ?_) hstep
      cases hc
      exact ⟨fun hw => hw, fun hr => hr⟩
    | callClose =>
      cases hstep
      refine ⟨fun pc hpc hne => ?_, ?_, h.watched, fun hr => ?_, fun hp' => absurd hp' hp⟩
      · rcases List.mem_append.mp hpc with hpc | hpc
        · exact h.listener pc hpc hne
        · exact absurd (List.mem_singleton.mp hpc) hne
      · rw [List.countP_append, h.once]
        rfl
      · rcases List.mem_append.mp hr with hr | hr
        · exact h.quiet hr
        · cases List.mem_singleton.mp hr
    | closeListener j =>
      dsimp only at hstep
      split at hstep
      · next hj =>
        cases hstep
        exact h.closer hj rfl rfl (fun hr => ClosePC.noConfusion hr)
      · cases hstep
    | closeClosing j =>
      dsimp only at hstep
      split at hstep
      · next hj =>
        have hl := h.listener _ (List.mem_of_getElem? hj) ClosePC.noConfusion
        split at hstep
        · next hc =>
          cases hstep
          exact ⟨h.listener, h.once, h.watched, h.quiet, fun _ => h.two_closers hj hc⟩
        · next hc =>
          cases hstep
          exact h.closer hj hl (by rw [if_neg hc]; rfl) (fun hr => ClosePC.noConfusion hr)
      · cases hstep
    | wait j =>
      dsimp only at hstep
      split at hstep
      · next hj =>
        have hl := h.listener _ (List.mem_of_getElem? hj) ClosePC.noConfusion
        obtain ⟨hq, hstep⟩ := Option.ite_none_right_eq_some.mp hstep
        cases hstep
        exact h.closer hj hl rfl (fun _ => hq)
      · cases hstep

/-- No step makes a call of `Close` but the one that says so. -/
theorem closers_length {s s' : State} {op : Op} (hown : op.Own) (hstep : op.step s = some s') :
    s'.closers.length = s.closers.length := by
  unfold Op.step at hstep
  split at hstep
  · cases hstep
  · cases op with
    | check | accept | acceptError =>
      dsimp only at hstep
      split at hstep <;> cases hstep
      rfl
    | read | process | watch =>
      obtain ⟨c, c', -, -, rfl⟩ := onConn_eq hstep
      rfl
    | closeListener j =>
      dsimp only at hstep
      split at hstep <;> cases hstep
      exact List.length_set
    | closeClosing j =>
      dsimp only at hstep
      split at hstep
      · split at hstep <;> cases hstep
        · rfl
        · exact List.length_set
      · cases hstep
    | wait j =>
      dsimp only at hstep
      split at hstep
      · obtain ⟨-, hstep⟩ := Option.ite_none_right_eq_some.mp hstep
        cases hstep
        exact List.length_set
      · cases hstep
    | callClose | send | hangUp => exact hown.elim

/-- **A step uses up work**, once the channel is closed: nothing is accepted any more, and `serve`,
    which may go round for ever while `Accept` fails, now finds the channel closed. -/
theorem Inv.work_step {s s' : State} {op : Op} (h : Inv s) (hc : s.closing = true) (hown : op.Own)
    (hstep : op.step s = some s') : s'.closing = true ∧ s'.work < s.work := by
  unfold Op.step at hstep
  split at hstep
  · cases hstep
  · next hp =>
    cases op with
    | check =>
      dsimp only at hstep
      split at hstep
      · next hserve =>
        cases hstep
        refine ⟨hc, ?_⟩
        simp only [State.work, hserve, ServePC.work]
        omega
      · cases hstep
    | accept =>
      dsimp only at hstep
      split at hstep
      · next hl => cases (h.not_listening hc).symm.trans hl
      · cases hstep
    | acceptError b =>
      dsimp only at hstep
      split at hstep
      · next hserve =>
        cases hstep
        refine ⟨hc, ?_⟩
        have : (if b = true then ServePC.returned else .head).work < ServePC.accepting.work := by
          cases b <;> decide
        simp only [State.work, hserve]
        omega
      · cases hstep
    | read i =>
      obtain ⟨c, c', hi, hread, rfl⟩ := onConn_eq hstep
      have := total_set_lt hi (Conn.work_read hread)
      exact ⟨hc, by simp only [State.work]; omega⟩
    | process i =>
      obtain ⟨c, c', hi, hprocess, rfl⟩ := onConn_eq hstep
      have := total_set_lt hi (Conn.work_process hprocess)
      exact ⟨hc, by simp only [State.work]; omega⟩
    | watch i =>
      obtain ⟨c, c', hi, hwatch, rfl⟩ := onConn_eq hstep
      have := total_set_lt hi (Conn.work_watch hwatch)
      exact ⟨hc, by simp only [State.work]; omega⟩
    | closeListener j =>
      dsimp only at hstep
      split at hstep
      · next hj =>
        cases hstep
        have := total_set_lt (w := ClosePC.work) (b := .listenerClosed) hj (by decide)
        exact ⟨hc, by simp only [State.work]; omega⟩
      · cases hstep
    | closeClosing j =>
      dsimp only at hstep
      split at hstep
      · cases hstep
        refine ⟨hc, ?_⟩
        simp only [State.work, if_neg hp, if_true]
        omega
      · cases hstep
    | wait j =>
      dsimp only at hstep
      split at hstep
      · next hj =>
        obtain ⟨-, hstep⟩ := Option.ite_none_right_eq_some.mp hstep
        cases hstep
        have := total_set_lt (w := ClosePC.work) (b := .returned) hj (by decide)
        exact ⟨hc, by simp only [State.work]; omega⟩
      · cases hstep
    | callClose | send | hangUp => exact hown.elim

/-! ## Where a run ends -/

/-- Nobody can take a step. -/
def State.Stuck (s : State) : Prop := ∀ op : Op, op.Own → op.step s = none

/-- All goroutines have returned, the watchers as well, and all connections are closed. -/
structure State.Ended (s : State) : Prop where
  serve : s.serve = .returned
  conns : ∀ c ∈ s.conns, c.handler = .returned ∧ c.watched = true ∧ c.closed = true
  closers : ∀ pc ∈ s.closers, pc = .returned

section Stuck

variable {s : State} (hstuck : s.Stuck)

include hstuck

/-- Where nothing can go on, this connection cannot. -/
theorem onConn_of_stuck {i : Nat} {c : Conn} {op : Op} {f : Conn → Option Conn}
    (hop : op.step s = s.onConn i f) (hown : op.Own) (hi : s.conns[i]? = some c) : f c = none := by
  have hnone := hstuck op hown
  rw [hop, State.onConn, hi] at hnone
  exact Option.map_eq_none_iff.mp hnone

variable (hp : s.panicked = false)

include hp

/-- `serve` has something to do until it has returned. -/
theorem serve_of_stuck : s.serve = .returned := by
  cases hserve : s.serve with
  | returned => rfl
  | head =>
    have := hstuck .check trivial
    simp [Op.step, hp, hserve] at this
  | accepting =>
    have := hstuck (.acceptError true) trivial
    simp [Op.step, hp, hserve] at this

/-- The watcher has closed the connection, so that the handler has not been waiting for ever. -/
theorem conn_of_stuck (h : Inv s) (hc : s.closing = true) {c : Conn} (hmem : c ∈ s.conns) :
    c.handler = .returned ∧ c.watched = true ∧ c.closed = true := by
  obtain ⟨i, hi⟩ := List.getElem?_of_mem hmem
  have hwatched : c.watched = true := by
    have hnone := onConn_of_stuck hstuck (f := Conn.watch s.closing)
      (by simp [Op.step, hp] : (Op.watch i).step s = _) trivial hi
    by_contra hw
    rw [Conn.watch, if_pos ⟨Bool.eq_false_iff.mpr hw, Or.inl hc⟩] at hnone
    cases hnone
  have hclosed := h.watched c hmem hwatched
  refine ⟨?_, hwatched, hclosed⟩
  cases hpc : c.handler with
  | returned => rfl
  | reading =>
    have hnone := onConn_of_stuck hstuck (f := Conn.read)
      (by simp [Op.step, hp] : (Op.read i).step s = _) trivial hi
    simp [Conn.read, hpc, hclosed] at hnone
  | processing m =>
    have hnone := onConn_of_stuck hstuck (f := Conn.process)
      (by simp [Op.step, hp] : (Op.process i).step s = _) trivial hi
    cases m <;> simp [Conn.process, hpc] at hnone

/-- A call of `Close` has returned: the others have, and it has nothing to wait for. -/
theorem closer_of_stuck (h : Inv s) (hc : s.closing = true) {pc : ClosePC}
    (hmem : pc ∈ s.closers) : pc = .returned := by
  obtain ⟨j, hj⟩ := List.getElem?_of_mem hmem
  cases pc with
  | returned => rfl
  | start =>
    have := hstuck (.closeListener j) trivial
    simp [Op.step, hp, hj] at this
  | listenerClosed =>
    have := hstuck (.closeClosing j) trivial
    simp [Op.step, hp, hj, hc] at this
  | waiting =>
    have := hstuck (.wait j) trivial
    have hquiet : s.Quiet :=
      ⟨serve_of_stuck hstuck hp, fun c hmem => (conn_of_stuck hstuck hp h hc hmem).1⟩
    simp [Op.step, hp, hj, hquiet] at this

/-- Once the service is closing, standing still means that all has ended. -/
theorem ended_of_stuck (h : Inv s) (hc : s.closing = true) : s.Ended :=
  ⟨serve_of_stuck hstuck hp, fun _ hmem => conn_of_stuck hstuck hp h hc hmem,
    fun _ hmem => closer_of_stuck hstuck hp h hc hmem⟩

end Stuck

/-- All calls have returned, and only one can have closed the channel. -/
theorem one_closer {s : State} (h : Inv s) (hc : s.closing = true) (hended : s.Ended) :
    s.closers.length = 1 := by
  have hall : s.closers.countP ClosePC.past = s.closers.length :=
    List.countP_eq_length.mpr fun pc hpc => hended.closers pc hpc ▸ rfl
  rw [← hall, h.once, if_pos hc]

/-- **Close completes.**  Once `Close` has closed the channel, the service takes at most `work`
    steps unless somebody sends something, hangs up or calls `Close` again; and where it has come to
    an end everything has returned and every connection is closed, if `Close` was called once, and it
    has panicked, if it was called again.  A `Close` that has returned leaves nobody behind but
    watchers. -/
theorem close_completes {w v : List Op} {s s' : State} (hw : w.foldlM Op.step start = some s)
    (hc : s.closing = true) (hv : ∀ op ∈ v, op.Own) (hrun : v.foldlM Op.step s = some s') :
    v.length ≤ s.work ∧ (.returned ∈ s'.closers → s'.Quiet) ∧
      (s'.Stuck → if s.closers.length = 1 then s'.panicked = false ∧ s'.Ended
        else s'.panicked = true) := by
  have hs : Inv s := foldlM_inv (fun _ _ _ => Inv.step) inv_start hw
  have hbound : v.length + s'.work ≤ s.work :=
    length_add_work_le (J := fun t => Inv t ∧ t.closing = true)
      (fun t op t' ht hown hstep =>
        have hless := ht.1.work_step ht.2 hown hstep
        ⟨⟨ht.1.step hstep, hless.1⟩, hless.2⟩)
      hv ⟨hs, hc⟩ hrun
  obtain ⟨hs', hc', hlen⟩ : Inv s' ∧ s'.closing = true ∧ s'.closers.length = s.closers.length :=
    foldlM_inv_mem (f := Op.step) (P := Op.Own)
      (J := fun t => Inv t ∧ t.closing = true ∧ t.closers.length = s.closers.length)
      (fun t op t' ht hown hstep =>
        ⟨ht.1.step hstep, (ht.1.work_step ht.2.1 hown hstep).1,
          (closers_length hown hstep).trans ht.2.2⟩)
      hv ⟨hs, hc, rfl⟩ hrun
  refine ⟨by omega, hs'.quiet, fun hstuck => ?_⟩
  rw [← hlen]
  cases hp : s'.panicked with
  | true =>
    have htwo := hs'.panicked hp
    rw [if_neg (by omega)]
  | false =>
    have hended := ended_of_stuck hstuck hp hs' hc'
    rw [if_pos (one_closer hs' hc' hended)]
    exact ⟨rfl, hended⟩

/-- A client connects, sends a write, and `Close` is called. -/
def oneClient : List Op :=
  [.check, .accept, .send 0 .goesOn, .callClose, .closeListener 0, .closeClosing 0]

/-- The handler reads and serves the write before it finds its connection closed. -/
def shutDown : List Op :=
  [.check, .read 0, .watch 0, .process 0, .read 0, .wait 0]

/-- The service when `Close` has closed the channel: the write has not been read. -/
def channelClosed : State :=
  { listening := false, closing := true, serve := .head,
    conns := [{ handler := .reading, watched := false, closed := false, pending := [.goesOn],
                hungUp := false }],
    closers := [.waiting], panicked := false }

/-- The service when `Close` has returned. -/
def shut : State :=
  { listening := false, closing := true, serve := .returned,
    conns := [{ handler := .returned, watched := true, closed := true, pending := [],
                hungUp := false }],
    closers := [.returned], panicked := false }

theorem close_completes_oneClient :
    oneClient.foldlM Op.step start = some channelClosed ∧
      shutDown.foldlM Op.step channelClosed = some shut ∧
      shutDown.length ≤ channelClosed.work ∧ shut.Quiet := by
  have hw : oneClient.foldlM Op.step start = some channelClosed := by decide
  have hrun : shutDown.foldlM Op.step channelClosed = some shut := by decide
  obtain ⟨hlength, hquiet, -⟩ := close_completes hw rfl (by simp [shutDown, Op.Own]) hrun
  exact ⟨hw, hrun, hlength, hquiet List.mem_cons_self⟩

end InfluxCluster.Cluster.Closing
