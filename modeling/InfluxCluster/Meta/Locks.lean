/-
  The locks of the metadata client and of the meta store (`meta/client.go`, `meta/store.go`).

  Both are a `sync.RWMutex`, which admits no new reader while a writer waits, and which a goroutine
  that has it cannot take again.  Three methods do take it again:

  * `Client.ClusterID` calls `data` under its own `RLock`, and `data` takes another;
  * `store.ready` does the same with `peers`;
  * `store.reset` calls `close` under its own `Lock`, and `close` takes another.

  A METHOD is here the list of what it does to the lock, in the order of its run; what it does in
  between (requests to other servers, raft) only decides which run it is: how often a snapshot is
  asked for, how long a leader is waited for, where `open` gives up.  A system is a few goroutines
  that call such methods, under every interleaving.

  The first two are safe as long as no writer comes between the two `RLock`s, and `reset` never is.
  A run is free of deadlocks if it is ORDERLY: `Lock` is asked for only while no call is between its
  two `RLock`s, and it is not granted to `reset`.  Of the runs that go on as long as anybody can, no
  others are, and with `reset` none is (`lock_runs_iff`).
-/
import InfluxCluster.Lib.RWMutex

namespace InfluxCluster.Meta.Locks

open InfluxCluster.Lib InfluxCluster.Lib.RWMutex

namespace Client

/-! ## The client -/

def data : List LockOp := [.rlock, .runlock]

def clusterID : List LockOp := .rlock :: data ++ [.runlock]

def index : List LockOp := [.rlock, .runlock]

/-- One look at the servers for each attempt; the last one gets the snapshot, or finds the client
    closed. -/
def retryUntilSnapshot (failures : Nat) : List LockOp :=
  (List.replicate (failures + 1) [.rlock, .runlock]).flatten

/-- The rounds of the loop, by their failed attempts; after them the client has been closed, or
    polls no more in the part of the run that is looked at. -/
def pollForUpdates (rounds : List Nat) (closed : Option Nat) : List LockOp :=
  (rounds.map fun failures => index ++ retryUntilSnapshot failures ++ [.lock, .unlock]).flatten
    ++ closed.elim [] fun failures => index ++ retryUntilSnapshot failures

end Client

namespace Store

/-! ## The store -/

def peers : List LockOp := [.rlock, .runlock]

def ready : List LockOp := .rlock :: peers ++ [.runlock]

/-- `storeFSM.Apply`; the handlers leave the lock alone. -/
def apply : List LockOp := [.lock, .unlock]

def close : List LockOp := [.lock, .unlock]

def setOpen : List LockOp := [.lock, .unlock]

def openRaft : List LockOp := [.lock, .unlock]

def leader : List LockOp := [.rlock, .runlock]

def waitForLeader (polls : Nat) : List LockOp := (List.replicate polls leader).flatten

/-- How far `open` comes. -/
inductive OpenRun
  /-- The store is open, or its directory cannot be made. -/
  | setOpen
  /-- Raft cannot be opened. -/
  | openRaft
  /-- The store is closed while it waits for a leader. -/
  | closing (polls : Nat)
  /-- There is a leader; with one peer or none it is waited for again. -/
  | elected (polls again : Nat)

def «open» : OpenRun → List LockOp
  | .setOpen => setOpen
  | .openRaft => setOpen ++ openRaft
  | .closing polls => setOpen ++ openRaft ++ waitForLeader polls
  | .elected polls again =>
    setOpen ++ openRaft ++ waitForLeader polls ++ [.lock, .unlock] ++ waitForLeader again

/-- `none` if the store cannot be closed or its files cannot be removed. -/
def reset (run : Option OpenRun) : List LockOp :=
  .lock :: close ++ run.elim [] «open» ++ [.unlock]

end Store

/-! ## The goroutines -/

/-- A caller is given by the number of its calls. -/
inductive LockSystem
  /-- Callers of `ClusterID`, and `pollForUpdates`. -/
  | client (callers rounds : List Nat) (closed : Option Nat)
  /-- Callers of `ready`, and the log. -/
  | store (callers : List Nat) (applies : Nat)
  /-- The same, and a call of `reset`. -/
  | resetting (run : Option Store.OpenRun) (callers : List Nat) (applies : Nat)

def callsOf (method : List LockOp) (calls : Nat) : List LockOp :=
  (List.replicate calls method).flatten

def LockSystem.programs : LockSystem → List (List LockOp)
  | .client callers rounds closed =>
    Client.pollForUpdates rounds closed :: callers.map (callsOf Client.clusterID)
  | .store callers applies => callsOf Store.apply applies :: callers.map (callsOf Store.ready)
  | .resetting run callers applies =>
    Store.reset run :: callsOf Store.apply applies :: callers.map (callsOf Store.ready)

def LockSystem.start (sys : LockSystem) : List Party := parties sys.programs

def LockSystem.Resets : LockSystem → Prop
  | .resetting _ _ _ => True
  | _ => False

/-! ## What the methods take they give back -/

theorem section_read : Section [.rlock, .runlock] := fun _ h => h

theorem section_write : Section [.lock, .unlock] := fun _ h => h

theorem section_read_twice : Section [.rlock, .rlock, .runlock, .runlock] := fun _ h => h

theorem section_callsOf {method : List LockOp} (h : Section method) (calls : Nat) :
    Section (callsOf method calls) :=
  Section.flatten fun ops hops => by
    rw [List.eq_of_mem_replicate hops]
    exact h

theorem section_retryUntilSnapshot (failures : Nat) :
    Section (Client.retryUntilSnapshot failures) :=
  section_callsOf section_read (failures + 1)

/-- Whatever the client polls, it gives the lock up. -/
theorem section_pollForUpdates (rounds : List Nat) (closed : Option Nat) :
    Section (Client.pollForUpdates rounds closed) := by
  have hlook : ∀ failures, Section (Client.index ++ Client.retryUntilSnapshot failures) :=
    fun failures => section_read.append (section_retryUntilSnapshot failures)
  refine Section.append (Section.flatten fun ops hops => ?_) ?_
  · obtain ⟨failures, -, rfl⟩ := List.mem_map.mp hops
    exact (hlook failures).append section_write
  · cases closed with
    | none => exact Section.nil
    | some failures => exact hlook failures

theorem legal_callers {method : List LockOp} (h : Section method) (callers : List Nat) :
    ∀ ops ∈ callers.map (callsOf method), Legal .free ops := by
  intro ops hops
  obtain ⟨calls, -, rfl⟩ := List.mem_map.mp hops
  exact (section_callsOf h calls).legal

/-- `reset` has the lock when it asks for it again. -/
theorem nests_reset (run : Option Store.OpenRun) :
    nests .writing (Store.close ++ run.elim [] Store.open ++ [.unlock]) = true := rfl

/-- No party unlocks what it does not hold. -/
theorem LockSystem.legal (sys : LockSystem) : ∀ p ∈ sys.start, p.Legal := by
  refine legal_parties ?_
  cases sys with
  | client callers rounds closed =>
    exact List.forall_mem_cons.mpr
      ⟨(section_pollForUpdates rounds closed).legal, legal_callers section_read_twice callers⟩
  | store callers applies =>
    exact List.forall_mem_cons.mpr
      ⟨(section_callsOf section_write applies).legal, legal_callers section_read_twice callers⟩
  | resetting run callers applies =>
    refine List.forall_mem_cons.mpr ⟨?_, List.forall_mem_cons.mpr ⟨?_, ?_⟩⟩
    · -- nothing is asked of `reset` after the operation that is not granted to it
      rfl
    · exact (section_callsOf section_write applies).legal
    · exact legal_callers section_read_twice callers

/-! ## Deadlocks -/

/-- **An orderly run has no deadlock.  A run that goes on as long as anybody can has none exactly if
    it is orderly, and has one if there is a `reset`; every run can be made to go on that long.** -/
theorem lock_runs_iff (sys : LockSystem) (w : List Nat) :
    (OrderlyRun sys.start w →
      ∀ k t, (w.take k).foldlM step sys.start = some t → ¬ Deadlocked t)
    ∧ ∀ t, w.foldlM step sys.start = some t →
      (Stopped t →
        ((∀ k u, (w.take k).foldlM step sys.start = some u → ¬ Deadlocked u)
          ↔ OrderlyRun sys.start w))
      ∧ (sys.Resets → Stopped t → Deadlocked t)
      ∧ ∃ w' u, (w ++ w').foldlM step sys.start = some u ∧ Stopped u := by
  have hnot : ¬ Doomed sys.start := not_doomed_parties _
  refine ⟨fun h k t ht => h.deadlock_free sys.legal hnot k ht, fun t ht => ⟨fun hstop => ?_, ?_, ?_⟩⟩
  · exact deadlock_free_iff sys.legal hnot ht hstop
  · intro hresets hstop
    cases sys with
    | client callers rounds closed => exact hresets.elim
    | store callers applies => exact hresets.elim
    | resetting run callers applies =>
      exact selfLocks_deadlocked (i := 0) (nests_reset run) rfl ht hstop
  · obtain ⟨w', u, hw', hu⟩ := exists_stopped t
    refine ⟨w', u, ?_, hu⟩
    rw [List.foldlM_append, ht]
    exact hw'

/-- The poller asks for `Lock` while a caller of `ClusterID` is between its two `RLock`s; an entry of
    the log is applied while a caller of `ready` is; `reset` is called, and is alone. -/
theorem locks_deadlock :
    (∃ t, [1, 0, 0, 0, 0, 0].foldlM step (LockSystem.start (.client [1] [0] none)) = some t
      ∧ Deadlocked t)
    ∧ (∃ t, [1, 0].foldlM step (LockSystem.start (.store [1] 1)) = some t ∧ Deadlocked t)
    ∧ ∃ t, [0, 0, 0].foldlM step (LockSystem.start (.resetting (some (.elected 1 0)) [] 0)) = some t
      ∧ Deadlocked t :=
  ⟨⟨_, rfl, by decide⟩, ⟨_, rfl, by decide⟩, _, rfl, by decide⟩

end InfluxCluster.Meta.Locks
