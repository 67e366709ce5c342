/-
  The pool of connections to a node (`cluster/pool.go`): `Get` while the pool is being closed.

  `Close` takes the channel out of the pool and clears the factory under the lock, and then closes
  the channel and drains it without the lock.  `Get` reads the channel under the lock; what it does
  then, the receive, the load of `total`, the call of `c.factory` and the second receive, it does
  WITHOUT.

  The channel does well.  What is in it when it is closed goes to a call that receives it or is closed
  by the drain, and a receive from a channel that is closed and empty gives nil, which is `ErrClosed`.
  Connections are not lost (`Inv.accounted`), and once the drain is over none is idle
  (`Inv.drained`).

  The factory does not.  A call that has found the channel empty and room for a connection calls
  `c.factory`; if `Close` has cleared it meanwhile, it calls nil, and the process PANICS.  That cannot
  happen exactly if the factory is not cleared while a call is about to use it, and no call passes
  the comparison after that (`close_race`).

  Steps are cut where others may come between; to read `c.factory` and to call what was read is one
  step.
-/
import InfluxCluster.Cluster.Pool
import InfluxCluster.Lib.Lockstep

namespace InfluxCluster.Cluster.PoolClose

open InfluxCluster.Lib

/-! ## The steps of the calls -/

/-- Where a call of `Get` is. -/
inductive GetPlace
  /-- Before `getConns`. -/
  | starting
  /-- It has the channel; before the first receive, which does not wait. -/
  | receiving
  /-- The channel was empty; before the load of `total`. -/
  | loading
  /-- There is room; before the call of the factory. -/
  | dialing
  /-- The factory has made the connection; before the increment. -/
  | counting (conn : Conn)
  /-- There is no room; before the second receive, which waits until the timeout. -/
  | waiting
  /-- The call has returned the connection, and its borrower has it. -/
  | holding (conn : Conn)
  /-- The call has returned an error, or the borrower has given the connection back. -/
  | returned
  deriving DecidableEq

/-- Where a call of `Close` is; it found a channel in the pool if `had`. -/
inductive ClosePlace
  /-- Before `c.mu.Lock()`. -/
  | starting
  /-- It has the lock, and `c.conns` is nil now; before `c.factory = nil` and the unlock. -/
  | clearing (had : Bool)
  /-- Before `close(conns)`, or the return if there is no channel. -/
  | shutting (had : Bool)
  /-- In the loop over the channel. -/
  | draining
  /-- The loop is over. -/
  | drained
  /-- There was no channel. -/
  | nothing
  deriving DecidableEq

/-- The pool, its channel, and all calls so far. -/
structure Closing where
  cap : Nat
  /-- What is in the channel that the pool was made with. -/
  chan : List Conn
  chanClosed : Bool
  /-- `c.conns` is that channel; else it is nil. -/
  conns : Bool
  /-- `c.factory` is not nil. -/
  factory : Bool
  /-- `c.mu`, between two steps. -/
  locked : Bool
  total : Int
  /-- How many connections the factory has made; they are numbered. -/
  made : Nat
  /-- The connections that are closed. -/
  closed : List Conn
  gets : List GetPlace
  closes : List ClosePlace
  panicked : Bool
  deriving DecidableEq

inductive Step
  | get
  | getConns (i : Nat)
  | receive (i : Nat)
  | load (i : Nat)
  | dial (i : Nat) (dialed : Dialed)
  | count (i : Nat)
  | timeout (i : Nat)
  | put (i : Nat)
  | close
  | take (j : Nat)
  | clear (j : Nat)
  | shut (j : Nat)
  | drain (j : Nat)

namespace Closing

/-- A pool with so many idle connections. -/
def start (cap idle : Nat) : Closing :=
  { cap := cap, chan := List.range idle, chanClosed := false, conns := true, factory := true
    locked := false, total := int32 idle, made := idle, closed := [], gets := [], closes := []
    panicked := false }

/-- The `i`-th call of `Get` goes on to that place. -/
def goto (s : Closing) (i : Nat) (place : GetPlace) : Closing := { s with gets := s.gets.set i place }

/-- The `j`-th call of `Close` goes on to that place. -/
def closeGoto (s : Closing) (j : Nat) (place : ClosePlace) : Closing :=
  { s with closes := s.closes.set j place }

/-- `atomic.LoadInt32(&c.total) < int32(cap(conns))`. -/
def mayCreate (s : Closing) : Bool := s.total < int32 s.cap

/-- A receive from the channel by the `i`-th call; `empty` is what it does when there is nothing in
    it and it is open. -/
def recv (s : Closing) (i : Nat) (empty : Option Closing) : Option Closing :=
  match s.chan with
  | conn :: chan => some ({ s with chan := chan }.goto i (.holding conn))
  | [] => if s.chanClosed then some (s.goto i .returned) else empty

/-- `put`, by the borrower of the `i`-th call. -/
def put (s : Closing) (i : Nat) (conn : Conn) : Closing :=
  if !s.conns then { s with closed := conn :: s.closed }.goto i .returned
  else if s.chan.length < s.cap then { s with chan := s.chan ++ [conn] }.goto i .returned
  else { s with total := int32 (s.total - 1), closed := conn :: s.closed }.goto i .returned

/-- One step; `none` if the call is not there, or would wait. -/
def step (s : Closing) (op : Step) : Option Closing :=
  if s.panicked then none
  else match op with
  | .get => some { s with gets := s.gets ++ [.starting] }
  | .getConns i =>
    match s.gets[i]? with
    | some .starting =>
      if s.locked then none
      else some (s.goto i (if s.conns then .receiving else .returned))
    | _ => none
  | .receive i =>
    match s.gets[i]? with
    | some .receiving => s.recv i (some (s.goto i .loading))
    | some .waiting => s.recv i none
    | _ => none
  | .load i =>
    match s.gets[i]? with
    | some .loading => some (s.goto i (if s.mayCreate then .dialing else .waiting))
    | _ => none
  | .dial i dialed =>
    match s.gets[i]? with
    | some .dialing =>
      if !s.factory then some { s with panicked := true }
      else
        match dialed with
        | .ok () => some ({ s with made := s.made + 1 }.goto i (.counting s.made))
        | .error _ => some (s.goto i .returned)
    | _ => none
  | .count i =>
    match s.gets[i]? with
    | some (.counting conn) => some ({ s with total := int32 (s.total + 1) }.goto i (.holding conn))
    | _ => none
  | .timeout i =>
    match s.gets[i]? with
    | some .waiting => some (s.goto i .returned)
    | _ => none
  | .put i =>
    match s.gets[i]? with
    | some (.holding conn) => if s.locked then none else some (s.put i conn)
    | _ => none
  | .close => some { s with closes := s.closes ++ [.starting] }
  | .take j =>
    match s.closes[j]? with
    | some .starting =>
      if s.locked then none
      else some ({ s with locked := true, conns := false }.closeGoto j (.clearing s.conns))
    | _ => none
  | .clear j =>
    match s.closes[j]? with
    | some (.clearing had) =>
      some ({ s with factory := false, locked := false }.closeGoto j (.shutting had))
    | _ => none
  | .shut j =>
    match s.closes[j]? with
    | some (.shutting true) => some ({ s with chanClosed := true }.closeGoto j .draining)
    | some (.shutting false) => some (s.closeGoto j .nothing)
    | _ => none
  | .drain j =>
    match s.closes[j]? with
    | some .draining =>
      match s.chan with
      | conn :: chan => some { s with chan := chan, closed := conn :: s.closed }
      | [] => some (s.closeGoto j .drained)
    | _ => none

/-! ## What a step does -/

/-- The steps that are possible, branch by branch. -/
inductive Does (s : Closing) : Step → Closing → Prop
  | get : Does s .get { s with gets := s.gets ++ [.starting] }
  | getConns {i : Nat} (h : s.gets[i]? = some .starting) (hfree : s.locked = false) :
    Does s (.getConns i) (s.goto i (if s.conns then .receiving else .returned))
  | took {i : Nat} {place : GetPlace} {conn : Conn} {chan : List Conn} (h : s.gets[i]? = some place)
    (hplace : place = .receiving ∨ place = .waiting) (hchan : s.chan = conn :: chan) :
    Does s (.receive i) ({ s with chan := chan }.goto i (.holding conn))
  | tookNil {i : Nat} {place : GetPlace} (h : s.gets[i]? = some place)
    (hplace : place = .receiving ∨ place = .waiting) :
    Does s (.receive i) (s.goto i .returned)
  | foundEmpty {i : Nat} (h : s.gets[i]? = some .receiving) :
    Does s (.receive i) (s.goto i .loading)
  | load {i : Nat} (h : s.gets[i]? = some .loading) :
    Does s (.load i) (s.goto i (if s.mayCreate then .dialing else .waiting))
  | dialNil {i : Nat} {dialed : Dialed} (h : s.gets[i]? = some .dialing)
    (hnil : s.factory = false) : Does s (.dial i dialed) { s with panicked := true }
  | dialed {i : Nat} (h : s.gets[i]? = some .dialing) (hfactory : s.factory = true) :
    Does s (.dial i (.ok ())) ({ s with made := s.made + 1 }.goto i (.counting s.made))
  | dialFailed {i : Nat} {text : String} (h : s.gets[i]? = some .dialing)
    (hfactory : s.factory = true) : Does s (.dial i (.error text)) (s.goto i .returned)
  | count {i : Nat} {conn : Conn} (h : s.gets[i]? = some (.counting conn)) :
    Does s (.count i) ({ s with total := int32 (s.total + 1) }.goto i (.holding conn))
  | timeout {i : Nat} (h : s.gets[i]? = some .waiting) : Does s (.timeout i) (s.goto i .returned)
  | putClosed {i : Nat} {conn : Conn} (h : s.gets[i]? = some (.holding conn)) :
    Does s (.put i) ({ s with closed := conn :: s.closed }.goto i .returned)
  | putIdle {i : Nat} {conn : Conn} (h : s.gets[i]? = some (.holding conn))
    (hconns : s.conns = true) :
    Does s (.put i) ({ s with chan := s.chan ++ [conn] }.goto i .returned)
  | putFull {i : Nat} {conn : Conn} (h : s.gets[i]? = some (.holding conn)) :
    Does s (.put i)
      ({ s with total := int32 (s.total - 1), closed := conn :: s.closed }.goto i .returned)
  | close : Does s .close { s with closes := s.closes ++ [.starting] }
  | take {j : Nat} (h : s.closes[j]? = some .starting) (hfree : s.locked = false) :
    Does s (.take j) ({ s with locked := true, conns := false }.closeGoto j (.clearing s.conns))
  | clear {j : Nat} {had : Bool} (h : s.closes[j]? = some (.clearing had)) :
    Does s (.clear j) ({ s with factory := false, locked := false }.closeGoto j (.shutting had))
  | shut {j : Nat} (h : s.closes[j]? = some (.shutting true)) :
    Does s (.shut j) ({ s with chanClosed := true }.closeGoto j .draining)
  | shutNil {j : Nat} (h : s.closes[j]? = some (.shutting false)) :
    Does s (.shut j) (s.closeGoto j .nothing)
  | drainOne {j : Nat} {conn : Conn} {chan : List Conn} (h : s.closes[j]? = some .draining)
    (hchan : s.chan = conn :: chan) :
    Does s (.drain j) { s with chan := chan, closed := conn :: s.closed }
  | drained {j : Nat} (h : s.closes[j]? = some .draining) (hchan : s.chan = []) :
    Does s (.drain j) (s.closeGoto j .drained)

/-- A receive gets a connection, or nil from a channel that is closed, or finds nothing. -/
theorem recv_cases {s s' : Closing} {i : Nat} {empty : Option Closing}
    (h : s.recv i empty = some s') :
    (∃ conn chan, s.chan = conn :: chan ∧ s' = { s with chan := chan }.goto i (.holding conn)) ∨
      s' = s.goto i .returned ∨ empty = some s' := by
  unfold recv at h
  split at h
  · rename_i conn chan hchan
    cases h
    exact Or.inl ⟨conn, chan, hchan, rfl⟩
  · split at h
    · cases h
      exact Or.inr (Or.inl rfl)
    · exact Or.inr (Or.inr h)

/-- Both receives; they differ in what they do when there is nothing. -/
theorem does_receive {s s' : Closing} {i : Nat} {place : GetPlace} {empty : Option Closing}
    (hplace : s.gets[i]? = some place) (hrecv : place = .receiving ∨ place = .waiting)
    (h : s.recv i empty = some s') (hempty : empty = some s' → Does s (.receive i) s') :
    Does s (.receive i) s' := by
  rcases recv_cases h with ⟨conn, chan, hchan, rfl⟩ | rfl | hnone
  · exact .took hplace hrecv hchan
  · exact .tookNil hplace hrecv
  · exact hempty hnone

theorem does_put (s : Closing) {i : Nat} {conn : Conn} (h : s.gets[i]? = some (.holding conn)) :
    Does s (.put i) (s.put i conn) := by
  unfold put
  split
  · exact .putClosed h
  · rename_i hconns
    split
    · exact .putIdle h (by simpa using hconns)
    · exact .putFull h

/-- **Every step is one of these**, and none is taken after a panic. -/
theorem does_of_step {s s' : Closing} {op : Step} (h : s.step op = some s') :
    s.panicked = false ∧ Does s op s' := by
  unfold step at h
  split at h
  · cases h
  · rename_i hpanic
    refine ⟨Bool.eq_false_iff.mpr hpanic, ?_⟩
    cases op with
    | get => cases h; exact .get
    | getConns i =>
      dsimp only at h
      split at h
      · rename_i hplace
        split at h
        · cases h
        · rename_i hfree
          cases h
          exact .getConns hplace (Bool.eq_false_iff.mpr hfree)
      · cases h
    | receive i =>
      dsimp only at h
      split at h
      · rename_i hplace
        refine does_receive hplace (Or.inl rfl) h fun hempty => ?_
        cases hempty
        exact .foundEmpty hplace
      · rename_i hplace
        exact does_receive hplace (Or.inr rfl) h nofun
      · cases h
    | load i =>
      dsimp only at h
      split at h
      · rename_i hplace
        cases h
        exact .load hplace
      · cases h
    | dial i dialed =>
      dsimp only at h
      split at h
      · rename_i hplace
        split at h
        · rename_i hnil
          cases h
          exact .dialNil hplace (by simpa using hnil)
        · rename_i hfactory
          have hfactory : s.factory = true := by simpa using hfactory
          rcases dialed with text | _
          · cases h
            exact .dialFailed hplace hfactory
          · cases h
            exact .dialed hplace hfactory
      · cases h
    | count i =>
      dsimp only at h
      split at h
      · rename_i hplace
        cases h
        exact .count hplace
      · cases h
    | timeout i =>
      dsimp only at h
      split at h
      · rename_i hplace
        cases h
        exact .timeout hplace
      · cases h
    | put i =>
      dsimp only at h
      split at h
      · rename_i hplace
        split at h
        · cases h
        · cases h
          exact s.does_put hplace
      · cases h
    | close => cases h; exact .close
    | take j =>
      dsimp only at h
      split at h
      · rename_i hplace
        split at h
        · cases h
        · rename_i hfree
          cases h
          exact .take hplace (Bool.eq_false_iff.mpr hfree)
      · cases h
    | clear j =>
      dsimp only at h
      split at h
      · rename_i hplace
        cases h
        exact .clear hplace
      · cases h
    | shut j =>
      dsimp only at h
      split at h
      · rename_i hplace
        cases h
        exact .shut hplace
      · rename_i hplace
        cases h
        exact .shutNil hplace
      · cases h
    | drain j =>
      dsimp only at h
      split at h
      · rename_i hplace
        split at h
        · rename_i hchan
          cases h
          exact .drainOne hplace hchan
        · rename_i hchan
          cases h
          exact .drained hplace hchan
      · cases h

end Closing

/-! ## Connections and the lock -/

/-- The connection that the call has. -/
def GetPlace.conn? : GetPlace → Option Conn
  | .counting conn | .holding conn => some conn
  | .starting | .receiving | .loading | .dialing | .waiting | .returned => none

/-- A call, or its borrower, has the connection. -/
def Held (gets : List GetPlace) (conn : Conn) : Prop :=
  ∃ (i : Nat) (place : GetPlace), gets[i]? = some place ∧ place.conn? = some conn

/-- A call that goes on leaves the connections of the others alone. -/
theorem Held.set {gets : List GetPlace} {i : Nat} {old : GetPlace} {conn : Conn} (new : GetPlace)
    (hold : gets[i]? = some old) (h : Held gets conn) :
    Held (gets.set i new) conn ∨ old.conn? = some conn := by
  obtain ⟨k, place, hk, hconn⟩ := h
  by_cases hik : i = k
  · subst hik
    rw [hold] at hk
    cases hk
    exact Or.inr hconn
  · refine Or.inl ⟨k, place, ?_, hconn⟩
    rw [List.getElem?_set_ne hik]
    exact hk

theorem held_set_self {gets : List GetPlace} {i : Nat} {old new : GetPlace} {conn : Conn}
    (hold : gets[i]? = some old) (hnew : new.conn? = some conn) : Held (gets.set i new) conn := by
  obtain ⟨hlt, -⟩ := List.getElem?_eq_some_iff.mp hold
  exact ⟨i, new, List.getElem?_set_self hlt, hnew⟩

/-- The connection is idle, or with a call, or closed. -/
def Closing.Accounted (s : Closing) (conn : Conn) : Prop :=
  conn ∈ s.chan ∨ Held s.gets conn ∨ conn ∈ s.closed

/-- What holds in every state. -/
structure Inv (s : Closing) : Prop where
  accounted : ∀ conn < s.made, s.Accounted conn
  /-- The lock is held by a call of `Close` that is about to give it up. -/
  lock : s.locked = true → ∃ (j : Nat) (had : Bool), s.closes[j]? = some (.clearing had)
  /-- A call of `Close` that has started has taken the channel out of the pool. -/
  taken : ∀ place ∈ s.closes, place ≠ .starting → s.conns = false
  drained : .drained ∈ s.closes → s.chan = []

namespace Inv

variable {s s' : Closing} {op : Step}

theorem start (cap idle : Nat) : Inv (Closing.start cap idle) where
  accounted _ h := Or.inl (List.mem_range.mpr h)
  lock h := absurd h Bool.false_ne_true
  taken _ h := absurd h List.not_mem_nil
  drained h := absurd h List.not_mem_nil

/-- A call of `Get` goes on: of the other connections nothing changes. -/
theorem accounted_set (h : Inv s) {i : Nat} {old : GetPlace} (new : GetPlace)
    (hold : s.gets[i]? = some old) {conn : Conn} (hconn : conn < s.made) :
    conn ∈ s.chan ∨ (Held (s.gets.set i new) conn ∨ old.conn? = some conn) ∨ conn ∈ s.closed := by
  rcases h.accounted conn hconn with hchan | hheld | hclosed
  · exact Or.inl hchan
  · exact Or.inr (Or.inl (hheld.set new hold))
  · exact Or.inr (Or.inr hclosed)

/-- A call that has no connection goes on. -/
theorem accounted_goto (h : Inv s) {i : Nat} {old : GetPlace} (new : GetPlace)
    (hold : s.gets[i]? = some old) (hnone : old.conn? = none) :
    ∀ conn < s.made, (s.goto i new).Accounted conn := by
  intro conn hconn
  rcases h.accounted_set new hold hconn with hchan | (hheld | hmine) | hclosed
  · exact Or.inl hchan
  · exact Or.inr (Or.inl hheld)
  · rw [hnone] at hmine
    cases hmine
  · exact Or.inr (Or.inr hclosed)

/-- A borrower gives the connection back: it is closed. -/
theorem accounted_close (h : Inv s) {i : Nat} {conn : Conn}
    (hold : s.gets[i]? = some (.holding conn)) {conn' : Conn} (hconn' : conn' < s.made) :
    conn' ∈ s.chan ∨ Held (s.gets.set i .returned) conn' ∨ conn' ∈ conn :: s.closed := by
  rcases h.accounted_set .returned hold hconn' with hchan | (hheld | hmine) | hclosed
  · exact Or.inl hchan
  · exact Or.inr (Or.inl hheld)
  · cases hmine
    exact Or.inr (Or.inr List.mem_cons_self)
  · exact Or.inr (Or.inr (List.mem_cons_of_mem conn hclosed))

theorem accounted_step (h : Inv s) (hstep : s.Does op s') : ∀ conn < s'.made, s'.Accounted conn := by
  cases hstep with
  | get =>
    intro conn hconn
    rcases h.accounted conn hconn with hchan | ⟨i, place, hi, hplace⟩ | hclosed
    · exact Or.inl hchan
    · refine Or.inr (Or.inl ⟨i, place, ?_, hplace⟩)
      exact List.getElem?_append_left (List.getElem?_eq_some_iff.mp hi).1 ▸ hi
    · exact Or.inr (Or.inr hclosed)
  | getConns hplace _ => exact h.accounted_goto _ hplace rfl
  | took hplace hrecv hchan =>
    rename_i i place conn chan
    intro conn' hconn'
    rcases h.accounted_set (.holding conn) hplace hconn' with hidle | (hheld | hmine) | hclosed
    · rw [hchan] at hidle
      rcases List.mem_cons.mp hidle with rfl | hrest
      · exact Or.inr (Or.inl (held_set_self hplace rfl))
      · exact Or.inl hrest
    · exact Or.inr (Or.inl hheld)
    · rcases hrecv with rfl | rfl <;> cases hmine
    · exact Or.inr (Or.inr hclosed)
  | tookNil hplace hrecv =>
    refine h.accounted_goto _ hplace ?_
    rcases hrecv with rfl | rfl <;> rfl
  | foundEmpty hplace => exact h.accounted_goto _ hplace rfl
  | load hplace => exact h.accounted_goto _ hplace rfl
  | dialNil hplace hnil => exact h.accounted
  | dialed hplace hfactory =>
    intro conn hconn
    rcases Nat.lt_succ_iff_lt_or_eq.mp hconn with hlt | rfl
    · exact h.accounted_goto _ hplace rfl conn hlt
    · exact Or.inr (Or.inl (held_set_self hplace rfl))
  | dialFailed hplace hfactory => exact h.accounted_goto _ hplace rfl
  | count hplace =>
    rename_i i conn
    intro conn' hconn'
    rcases h.accounted_set (.holding conn) hplace hconn' with hidle | (hheld | hmine) | hclosed
    · exact Or.inl hidle
    · exact Or.inr (Or.inl hheld)
    · exact Or.inr (Or.inl (held_set_self hplace hmine))
    · exact Or.inr (Or.inr hclosed)
  | timeout hplace => exact h.accounted_goto _ hplace rfl
  | putClosed hplace => exact fun _ => h.accounted_close hplace
  | putIdle hplace hconns =>
    intro conn' hconn'
    rcases h.accounted_set .returned hplace hconn' with hidle | (hheld | hmine) | hclosed
    · exact Or.inl (List.mem_append_left _ hidle)
    · exact Or.inr (Or.inl hheld)
    · cases hmine
      exact Or.inl (List.mem_append_right _ List.mem_cons_self)
    · exact Or.inr (Or.inr hclosed)
  | putFull hplace => exact fun _ => h.accounted_close hplace
  | close => exact h.accounted
  | take hplace hfree => exact h.accounted
  | clear hplace => exact h.accounted
  | shut hplace => exact h.accounted
  | shutNil hplace => exact h.accounted
  | drainOne hplace hchan =>
    intro conn' hconn'
    rcases h.accounted conn' hconn' with hidle | hheld | hclosed
    · rw [hchan] at hidle
      rcases List.mem_cons.mp hidle with rfl | hrest
      · exact Or.inr (Or.inr List.mem_cons_self)
      · exact Or.inl hrest
    · exact Or.inr (Or.inl hheld)
    · exact Or.inr (Or.inr (List.mem_cons_of_mem _ hclosed))
  | drained hplace hchan => exact h.accounted

theorem taken_step (h : Inv s) (hstep : s.Does op s') :
    ∀ place ∈ s'.closes, place ≠ .starting → s'.conns = false := by
  cases hstep with
  | close =>
    intro place hplace hne
    rcases List.mem_append.mp hplace with hmem | hnew
    · exact h.taken place hmem hne
    · exact absurd (List.mem_singleton.mp hnew) hne
  | take hplace hfree => exact fun _ _ _ => rfl
  | clear hplace =>
    have hconns := h.taken _ (List.mem_of_getElem? hplace) nofun
    exact fun _ _ _ => hconns
  | shut hplace =>
    have hconns := h.taken _ (List.mem_of_getElem? hplace) nofun
    exact fun _ _ _ => hconns
  | shutNil hplace =>
    have hconns := h.taken _ (List.mem_of_getElem? hplace) nofun
    exact fun _ _ _ => hconns
  | drained hplace hchan =>
    have hconns := h.taken _ (List.mem_of_getElem? hplace) nofun
    exact fun _ _ _ => hconns
  | _ => exact h.taken

theorem drained_step (h : Inv s) (hstep : s.Does op s') : .drained ∈ s'.closes → s'.chan = [] := by
  intro hd
  -- a call of Close that goes on to another place does not make one that is drained
  have hset : ∀ {j : Nat} {new : ClosePlace}, .drained ∈ s.closes.set j new → new ≠ .drained →
      s.chan = [] := by
    intro j new hmem hne
    rcases List.mem_or_eq_of_mem_set hmem with hold | heq
    · exact h.drained hold
    · exact absurd heq.symm hne
  cases hstep with
  | took hplace hrecv hchan =>
    have hnil := h.drained hd
    rw [hchan] at hnil
    cases hnil
  | putIdle hplace hconns =>
    have hnone := h.taken _ hd nofun
    rw [hconns] at hnone
    cases hnone
  | close =>
    rcases List.mem_append.mp hd with hold | hnew
    · exact h.drained hold
    · cases List.mem_singleton.mp hnew
  | take hplace hfree => exact hset hd nofun
  | clear hplace => exact hset hd nofun
  | shut hplace => exact hset hd nofun
  | shutNil hplace => exact hset hd nofun
  | drainOne hplace hchan =>
    have hnil := h.drained hd
    rw [hchan] at hnil
    cases hnil
  | drained hplace hchan => exact hchan
  | _ => exact h.drained hd

/-- A call of `Close` that does not have the lock goes on. -/
theorem clearing_set {closes : List ClosePlace} {j : Nat} {old : ClosePlace} (new : ClosePlace)
    (hold : closes[j]? = some old) (hne : ∀ had, old ≠ .clearing had)
    (h : ∃ (k : Nat) (had : Bool), closes[k]? = some (.clearing had)) :
    ∃ (k : Nat) (had : Bool), (closes.set j new)[k]? = some (.clearing had) := by
  obtain ⟨k, had, hk⟩ := h
  refine ⟨k, had, ?_⟩
  have hjk : j ≠ k := by
    rintro rfl
    rw [hold] at hk
    cases hk
    exact hne had rfl
  rw [List.getElem?_set_ne hjk]
  exact hk

theorem lock_step (h : Inv s) (hstep : s.Does op s') :
    s'.locked = true → ∃ (j : Nat) (had : Bool), s'.closes[j]? = some (.clearing had) := by
  intro hl
  cases hstep with
  | close =>
    obtain ⟨j, had, hj⟩ := h.lock hl
    refine ⟨j, had, ?_⟩
    exact List.getElem?_append_left (List.getElem?_eq_some_iff.mp hj).1 ▸ hj
  | take hplace hfree =>
    obtain ⟨hlt, -⟩ := List.getElem?_eq_some_iff.mp hplace
    exact ⟨_, _, List.getElem?_set_self hlt⟩
  | clear hplace => exact absurd hl Bool.false_ne_true
  | shut hplace => exact clearing_set _ hplace nofun (h.lock hl)
  | shutNil hplace => exact clearing_set _ hplace nofun (h.lock hl)
  | drained hplace hchan => exact clearing_set _ hplace nofun (h.lock hl)
  | _ => exact h.lock hl

/-- **A step keeps it.** -/
theorem step (h : Inv s) (hstep : s.step op = some s') : Inv s' :=
  have hdoes := (Closing.does_of_step hstep).2
  ⟨h.accounted_step hdoes, h.lock_step hdoes, h.taken_step hdoes, h.drained_step hdoes⟩

/-- **A run keeps it.** -/
theorem run (h : Inv s) {w : List Step} (hrun : w.foldlM Closing.step s = some s') : Inv s' :=
  foldlM_inv (fun _ _ _ hs hstep => hs.step hstep) h hrun

end Inv

/-! ## `Get` returns -/

/-- The steps that a call still has before it, at most. -/
def GetPlace.rank : GetPlace → Nat
  | .starting => 5
  | .receiving => 4
  | .loading => 3
  | .dialing | .waiting => 2
  | .counting _ => 1
  | .holding _ | .returned => 0

/-- The call of `Get` whose step it is. -/
def Step.getter : Step → Option Nat
  | .getConns i | .receive i | .load i | .dial i _ | .count i | .timeout i => some i
  | .get | .put _ | .close | .take _ | .clear _ | .shut _ | .drain _ => none

/-- The call that takes the step is nearer to its end, or has brought the process down. -/
theorem rank_step {s s' : Closing} {op : Step} {i : Nat} (hstep : s.Does op s')
    (hop : op.getter = some i) :
    s'.panicked = true ∨ ∃ old new, s.gets[i]? = some old ∧ s'.gets[i]? = some new ∧
      new.rank < old.rank := by
  -- the place that the call is at afterwards
  have hset : ∀ {k : Nat} {old : GetPlace} (new : GetPlace), s.gets[k]? = some old →
      (s.gets.set k new)[k]? = some new := by
    intro k old new hold
    obtain ⟨hlt, -⟩ := List.getElem?_eq_some_iff.mp hold
    exact List.getElem?_set_self hlt
  cases hstep with
  | getConns hplace hfree =>
    cases hop
    refine Or.inr ⟨_, _, hplace, hset _ hplace, ?_⟩
    split <;> decide
  | took hplace hrecv hchan =>
    cases hop
    refine Or.inr ⟨_, _, hplace, hset _ hplace, ?_⟩
    rcases hrecv with rfl | rfl <;> simp [GetPlace.rank]
  | tookNil hplace hrecv =>
    cases hop
    refine Or.inr ⟨_, _, hplace, hset _ hplace, ?_⟩
    rcases hrecv with rfl | rfl <;> decide
  | foundEmpty hplace =>
    cases hop
    exact Or.inr ⟨_, _, hplace, hset _ hplace, by decide⟩
  | load hplace =>
    cases hop
    refine Or.inr ⟨_, _, hplace, hset _ hplace, ?_⟩
    split <;> decide
  | dialNil hplace hnil => exact Or.inl rfl
  | dialed hplace hfactory =>
    cases hop
    exact Or.inr ⟨_, _, hplace, hset _ hplace, Nat.lt_succ_self 1⟩
  | dialFailed hplace hfactory =>
    cases hop
    exact Or.inr ⟨_, _, hplace, hset _ hplace, by decide⟩
  | count hplace =>
    cases hop
    exact Or.inr ⟨_, _, hplace, hset _ hplace, Nat.zero_lt_one⟩
  | timeout hplace =>
    cases hop
    exact Or.inr ⟨_, _, hplace, hset _ hplace, by decide⟩
  | _ => cases hop

/-- **A call of `Get` that has not returned can go on**, or a call of `Close` can that has the lock
    it waits for. -/
theorem Inv.can_go_on {s : Closing} (h : Inv s) (hpanic : s.panicked = false) {i : Nat}
    {place : GetPlace} (hplace : s.gets[i]? = some place) (hrank : 0 < place.rank) :
    (∃ op, op.getter = some i ∧ (s.step op).isSome) ∨ ∃ j, (s.step (.clear j)).isSome := by
  cases place with
  | starting =>
    cases hl : s.locked with
    | false => exact Or.inl ⟨.getConns i, rfl, by simp [Closing.step, hpanic, hplace, hl]⟩
    | true =>
      obtain ⟨j, had, hj⟩ := h.lock hl
      exact Or.inr ⟨j, by simp [Closing.step, hpanic, hj]⟩
  | receiving =>
    refine Or.inl ⟨.receive i, rfl, ?_⟩
    simp only [Closing.step, hpanic, hplace, Closing.recv, Bool.false_eq_true, if_false]
    split
    · rfl
    · split <;> rfl
  | loading => exact Or.inl ⟨.load i, rfl, by simp [Closing.step, hpanic, hplace]⟩
  | dialing =>
    refine Or.inl ⟨.dial i (.ok ()), rfl, ?_⟩
    simp only [Closing.step, hpanic, hplace, Bool.false_eq_true, if_false]
    split <;> rfl
  | counting conn => exact Or.inl ⟨.count i, rfl, by simp [Closing.step, hpanic, hplace]⟩
  | waiting => exact Or.inl ⟨.timeout i, rfl, by simp [Closing.step, hpanic, hplace]⟩
  | holding conn => exact absurd hrank (Nat.lt_irrefl 0)
  | returned => exact absurd hrank (Nat.lt_irrefl 0)

/-! ## The factory -/

namespace Closing

/-- Nobody has called a factory that was cleared, and nobody is about to. -/
def Safe (s : Closing) : Prop :=
  s.panicked = false ∧ (s.factory = true ∨ ∀ place ∈ s.gets, place ≠ .dialing)

/-- **The factory is cleared when no call is about to use it, and no call that loads `total` after
    that finds room.** -/
def InTime (s : Closing) : Step → Prop
  | .clear _ => ∀ place ∈ s.gets, place ≠ .dialing
  | .load _ => s.factory = true ∨ s.mayCreate = false
  | _ => True

instance (s : Closing) : Decidable s.Safe := inferInstanceAs (Decidable (_ ∧ _))

instance (s : Closing) (op : Step) : Decidable (s.InTime op) := by
  unfold InTime
  split <;> infer_instance

/-- No call is about to use the factory after one has gone elsewhere. -/
theorem not_dialing_set {gets : List GetPlace} (i : Nat) {new : GetPlace}
    (h : ∀ place ∈ gets, place ≠ .dialing) (hnew : new ≠ .dialing) :
    ∀ place ∈ gets.set i new, place ≠ .dialing := by
  intro place hplace
  rcases List.mem_or_eq_of_mem_set hplace with hmem | rfl
  · exact h place hmem
  · exact hnew

/-- A call that goes elsewhere than to the factory leaves it safe. -/
theorem Safe.of_goto {s s' : Closing} (h : s.Safe) {i : Nat} {new : GetPlace}
    (hgets : s'.gets = s.gets.set i new) (hnew : new ≠ .dialing) (hfactory : s'.factory = s.factory)
    (hpanic : s'.panicked = s.panicked) : s'.Safe := by
  obtain ⟨hp, hf⟩ := h
  refine ⟨hpanic.trans hp, ?_⟩
  rcases hf with hf | hf
  · exact Or.inl (hfactory.trans hf)
  · right
    rw [hgets]
    exact not_dialing_set i hf hnew

/-- **A step leaves it safe exactly if it is in time.** -/
theorem safe_step_iff {s s' : Closing} {op : Step} (h : s.Safe) (hstep : s.Does op s') :
    s'.Safe ↔ s.InTime op := by
  cases hstep with
  | get =>
    refine iff_of_true ⟨h.1, h.2.imp id fun hno place hplace => ?_⟩ trivial
    rcases List.mem_append.mp hplace with hmem | hnew
    · exact hno place hmem
    · rw [List.mem_singleton.mp hnew]
      nofun
  | getConns hplace hfree =>
    refine iff_of_true (h.of_goto rfl ?_ rfl rfl) trivial
    split <;> nofun
  | load hplace =>
    rename_i i
    obtain ⟨hlt, -⟩ := List.getElem?_eq_some_iff.mp hplace
    cases hm : s.mayCreate with
    | false =>
      rw [if_neg Bool.false_ne_true]
      exact iff_of_true (h.of_goto rfl nofun rfl rfl) (Or.inr hm)
    | true =>
      rw [if_pos rfl]
      constructor
      · rintro ⟨-, hf | hno⟩
        · exact Or.inl hf
        · exact absurd rfl (hno .dialing (List.mem_set hlt .dialing))
      · rintro (hf | hnone)
        · exact ⟨h.1, Or.inl hf⟩
        · rw [hm] at hnone
          cases hnone
  | dialNil hplace hnil =>
    rcases h.2 with hf | hno
    · rw [hnil] at hf
      cases hf
    · exact absurd rfl (hno _ (List.mem_of_getElem? hplace))
  | clear hplace =>
    constructor
    · rintro ⟨-, hf | hno⟩
      · cases hf
      · exact hno
    · exact fun hno => ⟨h.1, Or.inr hno⟩
  | took hplace hrecv hchan => exact iff_of_true (h.of_goto rfl nofun rfl rfl) trivial
  | tookNil hplace hrecv => exact iff_of_true (h.of_goto rfl nofun rfl rfl) trivial
  | foundEmpty hplace => exact iff_of_true (h.of_goto rfl nofun rfl rfl) trivial
  | dialed hplace hfactory => exact iff_of_true (h.of_goto rfl nofun rfl rfl) trivial
  | dialFailed hplace hfactory => exact iff_of_true (h.of_goto rfl nofun rfl rfl) trivial
  | count hplace => exact iff_of_true (h.of_goto rfl nofun rfl rfl) trivial
  | timeout hplace => exact iff_of_true (h.of_goto rfl nofun rfl rfl) trivial
  | putClosed hplace => exact iff_of_true (h.of_goto rfl nofun rfl rfl) trivial
  | putIdle hplace hconns => exact iff_of_true (h.of_goto rfl nofun rfl rfl) trivial
  | putFull hplace => exact iff_of_true (h.of_goto rfl nofun rfl rfl) trivial
  | close => exact iff_of_true h trivial
  | take hplace hfree => exact iff_of_true h trivial
  | shut hplace => exact iff_of_true h trivial
  | shutNil hplace => exact iff_of_true h trivial
  | drainOne hplace hchan => exact iff_of_true h trivial
  | drained hplace hchan => exact iff_of_true h trivial

end Closing

/-- **`Get` and `Close` at once.**  No call of `Get` calls a factory that was cleared exactly if the
    steps are in time.  In every run, connections that were made are idle, with a call or closed, and
    none is idle once a `Close` has drained the channel; and as long as the process runs, every call
    of `Get` that has not returned can go on, each of its steps bringing it nearer to its end, or
    waits for a lock that can be given up. -/
theorem close_race (cap idle : Nat) (w : List Step) :
    ((∀ k s, (w.take k).foldlM Closing.step (Closing.start cap idle) = some s → s.Safe) ↔
      Along Closing.step (fun s op => (s.step op).isSome → s.InTime op) (Closing.start cap idle) w) ∧
    ∀ s, w.foldlM Closing.step (Closing.start cap idle) = some s →
      (∀ conn < s.made, s.Accounted conn) ∧
      (.drained ∈ s.closes → ∀ conn < s.made, Held s.gets conn ∨ conn ∈ s.closed) ∧
      (s.panicked = false → ∀ i place, s.gets[i]? = some place → 0 < place.rank →
        (∃ op, op.getter = some i ∧ (s.step op).isSome) ∨ ∃ j, (s.step (.clear j)).isSome) ∧
      ∀ op i s', op.getter = some i → s.step op = some s' → s'.panicked = true ∨
        ∃ old new, s.gets[i]? = some old ∧ s'.gets[i]? = some new ∧ new.rank < old.rank := by
  constructor
  · refine foldlM_take_inv_iff (J := fun _ => True) (fun _ _ _ _ _ => trivial) ?_ w trivial
      ⟨rfl, Or.inl rfl⟩
    intro s op s' _ hs hstep
    exact Closing.safe_step_iff hs (Closing.does_of_step hstep).2
  · intro s hrun
    have hinv : Inv s := (Inv.start cap idle).run hrun
    refine ⟨hinv.accounted, ?_, ?_, ?_⟩
    · intro hdrained conn hconn
      rcases hinv.accounted conn hconn with hidle | hrest
      · rw [hinv.drained hdrained] at hidle
        cases hidle
      · exact hrest
    · intro hpanic i place hplace hrank
      exact hinv.can_go_on hpanic hplace hrank
    · intro op i s' hop hstep
      exact rank_step (Closing.does_of_step hstep).2 hop

/-- A call finds the channel empty and room for a connection; the pool is closed; the call calls the
    factory. -/
def closedMeanwhile : List Step :=
  [.get, .getConns 0, .receive 0, .load 0, .close, .take 0, .clear 0, .dial 0 (.ok ())]

/-- **`Get` calls nil**, in an empty pool with room for one connection. -/
theorem get_calls_nil :
    (closedMeanwhile.foldlM Closing.step (Closing.start 1 0)).map Closing.panicked = some true ∧
      ¬ ∀ k s, (closedMeanwhile.take k).foldlM Closing.step (Closing.start 1 0) = some s →
        s.Safe := by
  have hpanics : (closedMeanwhile.foldlM Closing.step (Closing.start 1 0)).map Closing.panicked
      = some true := by decide
  refine ⟨hpanics, ?_⟩
  intro h
  obtain ⟨s, hs, hpanic⟩ := Option.map_eq_some_iff.mp hpanics
  have hsafe : s.Safe := h 8 s hs
  rw [hsafe.1] at hpanic
  cases hpanic

end InfluxCluster.Cluster.PoolClose
