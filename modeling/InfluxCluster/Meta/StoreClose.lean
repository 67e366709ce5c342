/-
  Opening and closing a meta server (`meta/service.go`, `Open` and `Close`; `meta/store.go`, `open`
  and `close`; `meta/raft_state.go`, `open` and `close`).

  A meta server is four parties around ONE lock, `store.mu`:

  * `Service.Open`, which starts raft under the lock and then waits for a leader;
  * raft's goroutine for the state machine, which takes the lock for every entry that it applies and
    for every snapshot that it takes (`storeFSM.Apply`, `storeFSM.Snapshot`), at any time and as long
    as raft has not been shut down;
  * `logLeaderChanges`, which does not use the lock;
  * any number of calls of `Service.Close`.

  `close` of the store WAITS FOR RAFT WITH THE LOCK IN HAND: `raft.Shutdown` comes back when raft's
  goroutines have returned, and the state machine's does not return while it stands before the lock.
  This is what decides everything here.

  * What `Close` promises it keeps: when a call has returned, raft is down and no entry will be
    applied any more, also if another call did the work (`close_outcome`).
  * It always returns unless the two meet, and after that nobody ever takes the lock again.  A call
    that waits with the lock in hand returns exactly if the state machine does not stand before the
    lock already, and neither an entry nor a snapshot comes during the wait (`close_returns_iff`).
  * A server whose `Open` failed after raft was started has no `Close`: the handler is still nil,
    and the call panics.

  Of raft it is used that `Shutdown().Error()` returns when the goroutines have, and that the state
  machine's goroutine picks an entry, a snapshot or the end of raft in any order when they are there.
-/
import InfluxCluster.Lib.Lockstep
import Mathlib.Tactic.SplitIfs

namespace InfluxCluster.Meta.Closing

open InfluxCluster.Lib

/-! ## The parties -/

/-- Where `Service.Open` is: before raft, waiting for a leader with raft started, at the look at the
    peers, in the loop of a server that is alone, or at its end. -/
inductive OpenPlace
  | starting
  | electing
  | elected
  | alone
  | opened
  | failed
  deriving DecidableEq

/-- Raft itself. -/
inductive Raft
  | absent
  | running
  | stopping
  | stopped
  deriving DecidableEq

/-- Where the state machine's goroutine is: at its `select`, before the lock, with the lock in `Apply`
    or in `Snapshot`, or at its end.  `Restore` does not use the lock. -/
inductive FsmPlace
  | select
  | atLock
  | applying
  | returned
  deriving DecidableEq

/-- Where the call of `store.close` is that has the lock: before it looks at `closing`, waiting for
    `logLeaderChanges`, or waiting for raft. -/
inductive ClosePlace
  | checking
  | waitLog
  | waitRaft
  deriving DecidableEq

/-- A meta server.  Calls of `Close` that have not got the lock yet, and those that have returned,
    are only counted. -/
structure Server where
  opener : OpenPlace
  raft : Raft
  fsm : FsmPlace
  logging : Bool
  /-- `store.closing` is closed. -/
  closing : Bool
  waiting : Nat
  closer : Option ClosePlace
  returned : Nat
  panicked : Bool
  deriving DecidableEq

/-- Before `Open`. -/
def Server.start : Server :=
  { opener := .starting, raft := .absent, fsm := .returned, logging := false, closing := false,
    waiting := 0, closer := none, returned := 0, panicked := false }

/-- Nobody holds `store.mu`. -/
def Server.Free (s : Server) : Prop := s.fsm ≠ .applying ∧ s.closer = none

instance (s : Server) : Decidable s.Free := inferInstanceAs (Decidable (_ ∧ _))

@[grind =] theorem Server.free_iff (s : Server) :
    s.Free ↔ s.fsm ≠ .applying ∧ s.closer = none := Iff.rfl

/-- What `raftState.peers` says at the end of `store.open`. -/
inductive Peers
  | others
  | alone
  | failed
  deriving DecidableEq

/-- What happens. -/
inductive Op
  /-- The listener, the directory, or raft fails. -/
  | openFails
  | openRaft
  /-- `waitForLeader` sees a leader. -/
  | leader
  | peers (p : Peers)
  /-- Raft has an entry for the state machine, and its goroutine takes it. -/
  | commit
  /-- Raft wants a snapshot of the state machine, and its goroutine takes the request. -/
  | snapshot
  | fsmLock
  /-- `Apply` or `Snapshot` gives the lock back. -/
  | applied
  | fsmReturns
  /-- A call of `Service.Close`. -/
  | close
  | closeLock
  | closeCheck
  | logReturns
  | shutdown
  | closeReturns
  deriving DecidableEq

/-- What each of them does; `none` if it has to wait. -/
def Op.does (s : Server) : Op → Option Server
  | .openFails => if s.opener = .starting then some { s with opener := .failed } else none
  | .openRaft =>
    if s.opener = .starting ∧ s.Free then
      some { s with opener := .electing, raft := .running, fsm := .select, logging := true }
    else none
  | .leader =>
    if s.Free ∧ s.raft = .running then
      match s.opener with
      | .electing => some { s with opener := .elected }
      | .alone => some { s with opener := .opened }
      | _ => none
    else none
  | .peers p =>
    if s.opener = .elected ∧ s.Free then
      some { s with opener := match p with
        | .others => .opened
        | .alone => .alone
        | .failed => .failed }
    else none
  | .commit | .snapshot =>
    if s.fsm = .select then some { s with fsm := .atLock } else none
  | .fsmLock =>
    if s.fsm = .atLock ∧ s.Free then some { s with fsm := .applying } else none
  | .applied => if s.fsm = .applying then some { s with fsm := .select } else none
  | .fsmReturns =>
    if s.fsm = .select ∧ s.raft = .stopping then some { s with fsm := .returned } else none
  | .close =>
    -- the handler is set at the end of `Open`, and `Close` begins with it
    if s.opener = .opened then some { s with waiting := s.waiting + 1 }
    else some { s with panicked := true }
  | .closeLock =>
    if 0 < s.waiting ∧ s.Free then
      some { s with waiting := s.waiting - 1, closer := some .checking }
    else none
  | .closeCheck =>
    if s.closer = some .checking then
      if s.closing then some { s with closer := none, returned := s.returned + 1 }
      else some { s with closing := true, closer := some .waitLog }
    else none
  | .logReturns =>
    if s.closer = some .waitLog ∧ s.logging then some { s with logging := false } else none
  | .shutdown =>
    if s.closer = some .waitLog ∧ s.logging = false then
      some { s with closer := some .waitRaft, raft := .stopping }
    else none
  | .closeReturns =>
    if s.closer = some .waitRaft ∧ s.fsm = .returned then
      some { s with closer := none, raft := .stopped, returned := s.returned + 1 }
    else none

/-- One step of the process, which ends with a panic. -/
def Op.step (s : Server) (op : Op) : Option Server := if s.panicked then none else op.does s

theorem Op.does_of_step {s s' : Server} {op : Op} (h : op.step s = some s') :
    s.panicked = false ∧ op.does s = some s' := by
  rw [Op.step] at h
  split_ifs at h with hp
  exact ⟨by simpa using hp, h⟩

/-! ## What every run keeps -/

/-- The server as it can be: where `closing` and raft put each of the parties. -/
structure Server.Inv (s : Server) : Prop where
  /-- Nobody calls `close` of the store before `Open` has returned. -/
  opened : (0 < s.waiting ∨ s.closer ≠ none ∨ s.closing = true) → s.opener = .opened
  running : s.opener ≠ .starting → s.opener ≠ .failed → s.closing = false → s.raft = .running
  unclosed : s.closing = false → s.raft = .absent ∨ s.raft = .running
  /-- The call that closed the channel has the lock until raft is down. -/
  closed : s.closing = true →
    s.closer = some .waitLog ∨ s.closer = some .waitRaft ∨ s.raft = .stopped
  waitLog : s.closer = some .waitLog → s.closing = true ∧ s.raft = .running
  waitRaft : s.closer = some .waitRaft → s.closing = true ∧ s.raft = .stopping
  stopped : s.raft = .stopped → s.fsm = .returned
  returned : 0 < s.returned → s.raft = .stopped
  exclusive : s.fsm = .applying → s.closer = none

theorem inv_start : Server.start.Inv := by
  constructor <;> simp [Server.start]

/-- `openRaft`: nothing has been closed yet. -/
theorem Server.Inv.openRaft {s s' : Server} (hs : s.Inv)
    (hdoes : Op.does s .openRaft = some s') : s'.Inv := by
  have ⟨hopened, hrunning, hunclosed, hclosed, hlog, hraft, hstopped, hreturned, hexclusive⟩ := hs
  simp only [Op.does] at hdoes
  split_ifs at hdoes
  cases hdoes
  have hnot : s.closing = false := by grind
  exact { opened := by grind, running := by grind, unclosed := by grind, closed := by grind,
          waitLog := by grind, waitRaft := by grind, stopped := by grind, returned := by grind,
          exclusive := by grind }

/-- A call of `close` gets the lock. -/
theorem Server.Inv.closeLock {s s' : Server} (hs : s.Inv)
    (hdoes : Op.does s .closeLock = some s') : s'.Inv := by
  have ⟨hopened, hrunning, hunclosed, hclosed, hlog, hraft, hstopped, hreturned, hexclusive⟩ := hs
  simp only [Op.does] at hdoes
  split_ifs at hdoes
  cases hdoes
  exact { hs with opened := by grind, closed := by grind, waitLog := by grind,
                  waitRaft := by grind, exclusive := by grind }

/-- It finds the channel closed and returns, or closes it. -/
theorem Server.Inv.closeCheck {s s' : Server} (hs : s.Inv)
    (hdoes : Op.does s .closeCheck = some s') : s'.Inv := by
  have ⟨hopened, hrunning, hunclosed, hclosed, hlog, hraft, hstopped, hreturned, hexclusive⟩ := hs
  simp only [Op.does] at hdoes
  split_ifs at hdoes
  · cases hdoes
    exact { hs with opened := by grind, closed := by grind, waitLog := by grind,
                    waitRaft := by grind, returned := by grind, exclusive := by grind }
  · cases hdoes
    have hopen : s.opener = .opened := by grind
    exact { hs with opened := by grind, running := by grind, unclosed := by grind,
                    closed := by grind, waitLog := by grind, waitRaft := by grind,
                    exclusive := by grind }

/-- It begins to wait for raft. -/
theorem Server.Inv.shutdown {s s' : Server} (hs : s.Inv)
    (hdoes : Op.does s .shutdown = some s') : s'.Inv := by
  have ⟨hopened, hrunning, hunclosed, hclosed, hlog, hraft, hstopped, hreturned, hexclusive⟩ := hs
  simp only [Op.does] at hdoes
  split_ifs at hdoes
  cases hdoes
  exact { opened := by grind, running := by grind, unclosed := by grind, closed := by grind,
          waitLog := by grind, waitRaft := by grind, stopped := by grind, returned := by grind,
          exclusive := by grind }

/-- Raft is down, and it returns. -/
theorem Server.Inv.closeReturns {s s' : Server} (hs : s.Inv)
    (hdoes : Op.does s .closeReturns = some s') : s'.Inv := by
  have ⟨hopened, hrunning, hunclosed, hclosed, hlog, hraft, hstopped, hreturned, hexclusive⟩ := hs
  simp only [Op.does] at hdoes
  split_ifs at hdoes
  cases hdoes
  exact { opened := by grind, running := by grind, unclosed := by grind, closed := by grind,
          waitLog := by grind, waitRaft := by grind, stopped := by grind, returned := by grind,
          exclusive := by grind }

/-- Every step keeps the invariant: each party moves in the places that the others leave it. -/
theorem Server.Inv.step {s s' : Server} {op : Op} (hs : s.Inv) (hstep : op.step s = some s') :
    s'.Inv := by
  have hdoes := (Op.does_of_step hstep).2
  clear hstep
  cases op with
  | openRaft => exact hs.openRaft hdoes
  | closeLock => exact hs.closeLock hdoes
  | closeCheck => exact hs.closeCheck hdoes
  | shutdown => exact hs.shutdown hdoes
  | closeReturns => exact hs.closeReturns hdoes
  | openFails =>
    have ⟨hopened, hrunning, _, _, _, _, _, _, _⟩ := hs
    simp only [Op.does] at hdoes
    split_ifs at hdoes
    cases hdoes
    exact { hs with opened := by grind, running := by grind }
  | leader =>
    have ⟨hopened, hrunning, _, _, _, _, _, _, _⟩ := hs
    simp only [Op.does] at hdoes
    split_ifs at hdoes
    split at hdoes
    · cases hdoes
      exact { hs with opened := by grind, running := by grind }
    · cases hdoes
      exact { hs with opened := by grind, running := by grind }
    · cases hdoes
  | peers p =>
    have ⟨hopened, hrunning, _, _, _, _, _, _, _⟩ := hs
    simp only [Op.does] at hdoes
    split_ifs at hdoes
    cases hdoes
    exact { hs with opened := by grind, running := by grind }
  | commit | snapshot | fsmLock | applied | fsmReturns =>
    have ⟨_, _, _, _, _, _, hstopped, _, hexclusive⟩ := hs
    simp only [Op.does] at hdoes
    split_ifs at hdoes
    cases hdoes
    exact { hs with stopped := by grind, exclusive := by grind }
  | close =>
    have hopened := hs.opened
    simp only [Op.does] at hdoes
    split_ifs at hdoes
    · cases hdoes
      exact { hs with opened := by grind }
    · cases hdoes
      exact { hs with }
  | logReturns =>
    simp only [Op.does] at hdoes
    split_ifs at hdoes
    cases hdoes
    exact { hs with }

theorem inv_run {ops : List Op} {s : Server} (h : ops.foldlM Op.step Server.start = some s) :
    s.Inv :=
  foldlM_inv (fun _ _ _ hs hstep => hs.step hstep) inv_start h

/-! ## The deadlock -/

/-- A call of `close` waits for raft, or for the goroutine before it, with the lock in hand. -/
def Server.Waits (s : Server) : Prop := s.closer = some .waitLog ∨ s.closer = some .waitRaft

instance (s : Server) : Decidable s.Waits := inferInstanceAs (Decidable (_ ∨ _))

/-- **Deadlock**: and the state machine waits for the lock. -/
def Server.Deadlocked (s : Server) : Prop := s.Waits ∧ s.fsm = .atLock

instance (s : Server) : Decidable s.Deadlocked := inferInstanceAs (Decidable (_ ∧ _))

/-- Nobody ever leaves it: the lock is not given back, and nobody else gets it. -/
theorem Server.Deadlocked.step {s s' : Server} {op : Op} (hs : s.Inv) (h : s.Deadlocked)
    (hstep : op.step s = some s') : s'.Deadlocked ∧ s'.returned = s.returned := by
  have hdoes := (Op.does_of_step hstep).2
  have hopened := hs.opened
  clear hstep hs
  simp only [Server.Deadlocked, Server.Waits] at h ⊢
  cases op with
  | leader =>
    simp only [Op.does] at hdoes
    split_ifs at hdoes
    grind
  | _ =>
    simp only [Op.does] at hdoes
    split_ifs at hdoes
    all_goals
      cases hdoes
      grind

/-- From the deadlock on no call returns. -/
theorem Server.Deadlocked.run {s s' : Server} (hs : s.Inv) (h : s.Deadlocked) {w : List Op}
    (hw : w.foldlM Op.step s = some s') : s'.Deadlocked ∧ s'.returned = s.returned := by
  have hlast : s'.Inv ∧ s'.Deadlocked ∧ s'.returned = s.returned := by
    refine foldlM_inv (J := fun t => t.Inv ∧ t.Deadlocked ∧ t.returned = s.returned)
      (fun t op t' ht hstep => ?_) ⟨hs, h, rfl⟩ hw
    obtain ⟨hinv, hd, hret⟩ := ht
    obtain ⟨hd', hret'⟩ := hd.step hinv hstep
    exact ⟨hinv.step hstep, hd', hret'.trans hret⟩
  exact hlast.2

/-! ## The end of `Close` -/

/-- Steps that need nobody from outside: neither an entry, nor an election, nor a call. -/
def Op.Own : Op → Prop
  | .fsmLock | .applied | .fsmReturns | .closeLock | .closeCheck | .logReturns | .shutdown
  | .closeReturns => True
  | _ => False

instance (op : Op) : Decidable op.Own := by
  unfold Op.Own
  split <;> infer_instance

/-- What is left to do for the state machine's goroutine. -/
def FsmPlace.work : FsmPlace → Nat
  | .atLock => 3
  | .applying => 2
  | .select => 1
  | .returned => 0

/-- What is left to do for the call that has the lock. -/
def closerWork : Option ClosePlace → Nat
  | some .checking => 4
  | some .waitLog => 3
  | some .waitRaft => 2
  | none => 0

/-- How many steps of its own the server can still take. -/
def Server.work (s : Server) : Nat :=
  s.fsm.work + closerWork s.closer + 5 * s.waiting + (if s.logging then 1 else 0)

theorem Op.Own.work_lt {s s' : Server} {op : Op} (hop : op.Own) (hstep : op.step s = some s') :
    s'.work < s.work := by
  have hdoes := (Op.does_of_step hstep).2
  clear hstep
  unfold Server.work
  cases op <;> first | exact hop.elim | skip
  all_goals
    simp only [Op.does] at hdoes
    split_ifs at hdoes
    all_goals
      cases hdoes
      simp_all [FsmPlace.work, closerWork]
      try omega

/-- No step of its own is left. -/
def Server.Still (s : Server) : Prop := ∀ op : Op, op.Own → op.step s = none

/-- A server that is still has no call of `Close` in it, unless it is dead. -/
theorem Server.Still.closed {s : Server} (h : s.Still) (hs : s.Inv) :
    s.panicked = true ∨ s.Deadlocked ∨ s.waiting = 0 ∧ s.closer = none := by
  by_cases hp : s.panicked = true
  · exact Or.inl hp
  have hnone : ∀ op : Op, op.Own → op.does s = none := by
    intro op hop
    have hstep := h op hop
    rwa [Op.step, if_neg hp] at hstep
  refine Or.inr ?_
  rcases hc : s.closer with _ | _ | _ | _
  · -- the lock is free, but for the state machine: whoever waits for it would get it
    have happlied := hnone .applied trivial
    have hlock := hnone .closeLock trivial
    simp only [Op.does] at happlied hlock
    refine Or.inr ⟨?_, rfl⟩
    grind
  · have hcheck := hnone .closeCheck trivial
    simp only [Op.does, hc] at hcheck
    grind
  · have hlog := hnone .logReturns trivial
    have hshutdown := hnone .shutdown trivial
    simp only [Op.does, hc] at hlog hshutdown
    grind
  · -- raft is down: its goroutine returns, unless it waits for the lock
    have hreturns := hnone .fsmReturns trivial
    have hclosed := hnone .closeReturns trivial
    have hstopping := (hs.waitRaft hc).2
    have hexclusive := hs.exclusive
    simp only [Op.does, hc, hstopping] at hreturns hclosed
    refine Or.inl ⟨Or.inr hc, ?_⟩
    rcases hf : s.fsm with _ | _ | _ | _
    all_goals grind

/-- **What closing comes to.**  In every run of a meta server:

    *  when a call of `Close` has returned, raft is down and nothing will be applied any more;
    *  a server whose `Open` failed never shuts raft down;
    *  from any moment on the server takes at most `work` steps of its own, and when it takes none
       any more, no call of `Close` is left in it, unless it has panicked or is deadlocked;
    *  from the deadlock on no call ever returns. -/
theorem close_outcome {ops : List Op} {s : Server}
    (hrun : ops.foldlM Op.step Server.start = some s) :
    (0 < s.returned → s.raft = .stopped ∧ s.fsm = .returned) ∧
    (s.opener = .failed → s.raft = .absent ∨ s.raft = .running) ∧
    (∀ (w : List Op) (s' : Server), (∀ op ∈ w, op.Own) → w.foldlM Op.step s = some s' →
      w.length + s'.work ≤ s.work ∧
      (s'.Still → s'.panicked = true ∨ s'.Deadlocked ∨ s'.waiting = 0 ∧ s'.closer = none)) ∧
    (s.Deadlocked → ∀ (w : List Op) (s' : Server), w.foldlM Op.step s = some s' →
      s'.Deadlocked ∧ s'.returned = s.returned) := by
  have hs := inv_run hrun
  refine ⟨fun hret => ?_, fun hfailed => ?_, fun w s' hown hw => ?_, fun hdead w s' hw => ?_⟩
  · have hstopped := hs.returned hret
    exact ⟨hstopped, hs.stopped hstopped⟩
  · rcases hclosing : s.closing with _ | _
    · exact hs.unclosed hclosing
    · -- closed means opened
      have hopen := hs.opened (Or.inr (Or.inr hclosing))
      rw [hfailed] at hopen
      cases hopen
  · have hinv : s'.Inv := foldlM_inv (fun _ _ _ hs hstep => hs.step hstep) hs hw
    have hwork : w.length + s'.work ≤ s.work :=
      length_add_work_le (J := fun _ => True) (P := Op.Own)
        (fun _ _ _ _ hop hstep => ⟨trivial, hop.work_lt hstep⟩) hown trivial hw
    exact ⟨hwork, fun hstill => hstill.closed hinv⟩
  · exact hdead.run hs hw

/-- A server is opened, applies an entry and is closed twice. -/
def closedTwice : List Op :=
  [.openRaft, .leader, .peers .others, .commit, .fsmLock, .applied, .close, .close, .closeLock,
    .closeCheck, .logReturns, .shutdown, .fsmReturns, .closeReturns, .closeLock, .closeCheck]

/-- The server after that. -/
def closedServer : Server :=
  { opener := .opened, raft := .stopped, fsm := .returned, logging := false, closing := true,
    waiting := 0, closer := none, returned := 2, panicked := false }

/-- Both calls have returned, and nothing is left to do. -/
theorem close_outcome_closedTwice :
    closedTwice.foldlM Op.step Server.start = some closedServer ∧ closedServer.returned = 2 ∧
    closedServer.raft = .stopped ∧ closedServer.fsm = .returned := by
  have hrun : closedTwice.foldlM Op.step Server.start = some closedServer := by decide
  obtain ⟨hraft, hfsm⟩ := (close_outcome hrun).1 (by decide)
  exact ⟨hrun, rfl, hraft, hfsm⟩

/-! ## When a call returns -/

/-- A panic ends the process, and it is not one of an open server. -/
theorem Op.alive_of_step {s s' : Server} {op : Op} (hstep : op.step s = some s')
    (hopen : s'.opener = .opened) : s'.panicked = false := by
  obtain ⟨hp, hdoes⟩ := Op.does_of_step hstep
  cases op with
  | leader =>
    simp only [Op.does] at hdoes
    split_ifs at hdoes
    split at hdoes
    all_goals
      cases hdoes
      try exact hp
  | _ =>
    simp only [Op.does] at hdoes
    split_ifs at hdoes
    all_goals
      cases hdoes
      first | exact hp | grind

theorem alive_run {ops : List Op} {s : Server} (h : ops.foldlM Op.step Server.start = some s)
    (hopen : s.opener = .opened) : s.panicked = false :=
  foldlM_inv (J := fun s => s.opener = .opened → s.panicked = false)
    (fun _ _ _ _ hstep => Op.alive_of_step hstep) (fun _ => rfl) h hopen

/-- A call that waits: the server is open, the call has not returned, or raft's goroutine is gone. -/
structure Server.Awaits (n : Nat) (s : Server) : Prop where
  inv : s.Inv
  opened : s.opener = .opened
  alive : s.panicked = false
  call : s.Waits ∧ s.returned = n ∨ n < s.returned ∧ s.fsm = .returned

/-- What a step does to a call that waits. -/
theorem Server.Awaits.step {n : Nat} {s s' : Server} {op : Op} (h : s.Awaits n)
    (hstep : op.step s = some s') : s'.Awaits n := by
  have hinv := h.inv.step hstep
  have hdoes := (Op.does_of_step hstep).2
  have hopened := h.opened
  have halive := h.alive
  have hcall := h.call
  have hwaitRaft := h.inv.waitRaft
  simp only [Server.Waits] at hcall
  refine ⟨hinv, ?_, ?_, ?_⟩
  all_goals
    cases op with
    | leader =>
      simp only [Op.does, hopened] at hdoes
      split_ifs at hdoes
    | _ =>
      simp only [Op.does] at hdoes
      split_ifs at hdoes
      all_goals
        cases hdoes
        simp only [Server.Waits]
        grind

/-- What comes to the state machine while a call waits ends in the deadlock. -/
theorem Server.Awaits.deadlocked {n : Nat} {s s' : Server} {op : Op} (h : s.Awaits n)
    (hop : op = .commit ∨ op = .snapshot) (hstep : op.step s = some s') :
    s'.Deadlocked ∧ s'.returned = n := by
  have hdoes := (Op.does_of_step hstep).2
  have hselect : s.fsm = .select ∧ s' = { s with fsm := .atLock } := by
    obtain rfl | rfl := hop
    all_goals
      simp only [Op.does] at hdoes
      split_ifs at hdoes with hselect
      cases hdoes
      exact ⟨hselect, rfl⟩
  obtain ⟨hselect, rfl⟩ := hselect
  obtain ⟨hwaits, hreturned⟩ | ⟨-, hgone⟩ := h.call
  · exact ⟨⟨hwaits, rfl⟩, hreturned⟩
  · rw [hselect] at hgone
    cases hgone

/-- A run in which something comes to the state machine while a call waits. -/
theorem Server.Awaits.stuck {n : Nat} {s s' : Server} (h : s.Awaits n) {w : List Op}
    (hw : w.foldlM Op.step s = some s') (hcome : .commit ∈ w ∨ .snapshot ∈ w) :
    s'.Deadlocked ∧ s'.returned = n := by
  induction w generalizing s with
  | nil => exact absurd hcome (by simp)
  | cons op w ih =>
    rw [List.foldlM_cons] at hw
    obtain ⟨t, ht, hrest⟩ := Option.bind_eq_some_iff.mp hw
    by_cases hop : op = .commit ∨ op = .snapshot
    · obtain ⟨hdead, hreturned⟩ := h.deadlocked hop ht
      obtain ⟨hdead', hreturned'⟩ := hdead.run (h.inv.step ht) hrest
      exact ⟨hdead', hreturned'.trans hreturned⟩
    · obtain ⟨hcommit, hsnapshot⟩ := not_or.mp hop
      refine ih (h.step ht) hrest ?_
      simp only [List.mem_cons] at hcome
      grind

/-- Only an entry or a snapshot brings the state machine before the lock. -/
theorem Op.atLock_of_step {s s' : Server} {op : Op} (hstep : op.step s = some s')
    (hcommit : op ≠ .commit) (hsnapshot : op ≠ .snapshot) (h : s.fsm ≠ .atLock) :
    s'.fsm ≠ .atLock := by
  have hdoes := (Op.does_of_step hstep).2
  cases op with
  | commit => exact absurd rfl hcommit
  | snapshot => exact absurd rfl hsnapshot
  | leader =>
    simp only [Op.does] at hdoes
    split_ifs at hdoes
    split at hdoes
    all_goals
      cases hdoes
      try exact h
  | _ =>
    simp only [Op.does] at hdoes
    split_ifs at hdoes
    all_goals
      cases hdoes
      first | exact h | simp

/-- **When a call of `Close` returns.**  Take any server with a call that waits for raft with the
    lock in hand, and let it run until no step of its own is left, with whatever comes from outside.
    The call has returned if and only if the state machine did not stand before the lock at the
    beginning, and neither an entry nor a request for a snapshot has come to it since. -/
theorem close_returns_iff {ops : List Op} {s : Server}
    (hrun : ops.foldlM Op.step Server.start = some s) (hwaits : s.Waits) {w : List Op} {s' : Server}
    (hw : w.foldlM Op.step s = some s') (hstill : s'.Still) :
    s.returned < s'.returned ↔ s.fsm ≠ .atLock ∧ .commit ∉ w ∧ .snapshot ∉ w := by
  have hinv := inv_run hrun
  have hcloser : s.closer ≠ none := by
    obtain hc | hc := hwaits
    all_goals
      rw [hc]
      exact Option.some_ne_none _
  have hopened : s.opener = .opened := hinv.opened (.inr (.inl hcloser))
  have hawaits : s.Awaits s.returned :=
    ⟨hinv, hopened, alive_run hrun hopened, .inl ⟨hwaits, rfl⟩⟩
  have hlast : s'.Awaits s.returned := foldlM_inv (fun _ _ _ h hstep => h.step hstep) hawaits hw
  constructor
  · intro hreturned
    refine ⟨fun hlock => ?_, fun hcome => ?_, fun hcome => ?_⟩
    · have := (Server.Deadlocked.run hinv ⟨hwaits, hlock⟩ hw).2
      omega
    · have := (hawaits.stuck hw (.inl hcome)).2
      omega
    · have := (hawaits.stuck hw (.inr hcome)).2
      omega
  · rintro ⟨hlock, hcommit, hsnapshot⟩
    have hfree : s'.fsm ≠ .atLock := by
      refine foldlM_inv_mem (P := fun op => op ≠ .commit ∧ op ≠ .snapshot)
        (fun _ _ _ h hop hstep => Op.atLock_of_step hstep hop.1 hop.2 h) (fun op hop => ?_) hlock hw
      exact ⟨fun he => hcommit (he ▸ hop), fun he => hsnapshot (he ▸ hop)⟩
    obtain ⟨hstay, -⟩ | ⟨hreturned, -⟩ := hlast.call
    · -- a call that still waits would have a step to take
      obtain hp | hdead | ⟨-, hnone⟩ := hstill.closed hlast.inv
      · cases hlast.alive.symm.trans hp
      · exact absurd hdead.2 hfree
      · obtain hc | hc := hstay
        all_goals cases hnone.symm.trans hc
    · exact hreturned

/-- An open server of which a call of `Close` has the lock and waits. -/
def waitingServer : Server :=
  { opener := .opened, raft := .running, fsm := .select, logging := true, closing := true,
    waiting := 0, closer := some .waitLog, returned := 0, panicked := false }

/-- Raft wants a snapshot while the call waits, and the call never returns; if raft does not, it
    does. -/
theorem close_returns_snapshot : ∃ s₁ s₂,
    [Op.snapshot, .logReturns, .shutdown].foldlM Op.step waitingServer = some s₁ ∧
    [Op.logReturns, .shutdown, .fsmReturns, .closeReturns].foldlM Op.step waitingServer = some s₂ ∧
    ¬ waitingServer.returned < s₁.returned ∧ waitingServer.returned < s₂.returned := by
  have hrun : [Op.openRaft, .leader, .peers .others, .close, .closeLock, .closeCheck].foldlM
      Op.step Server.start = some waitingServer := by decide
  have hstill : ∀ s : Server, (∀ op ∈ [Op.fsmLock, .applied, .fsmReturns, .closeLock, .closeCheck,
      .logReturns, .shutdown, .closeReturns], op.step s = none) → s.Still := by
    intro s h op hop
    refine h op ?_
    cases op <;> first | exact hop.elim | decide
  refine ⟨{ waitingServer with fsm := .atLock, logging := false, closer := some .waitRaft,
                               raft := .stopping },
    { waitingServer with fsm := .returned, logging := false, closer := none, raft := .stopped,
                         returned := 1 }, by decide, by decide, ?_, ?_⟩
  · rw [close_returns_iff hrun (by decide) (w := [.snapshot, .logReturns, .shutdown]) (by decide)
      (hstill _ (by decide))]
    decide
  · rw [close_returns_iff hrun (by decide)
      (w := [.logReturns, .shutdown, .fsmReturns, .closeReturns]) (by decide) (hstill _ (by decide))]
    decide

end InfluxCluster.Meta.Closing
