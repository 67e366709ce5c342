/-
  The pool of connections to a node (`cluster/pool.go`), used by one caller at a time.

  Idle connections are in a channel of capacity `maxCap`.  `total` counts the connections that are
  idle or BORROWED and not marked as unusable.  It is changed in four places, and a connection moves
  between the channel and its borrowers:

  * `Get` takes an idle connection, or asks the factory for a new one and counts it;
  * `Close` of a borrowed connection puts it back into the channel, or closes it if it is unusable;
  * `MarkUnusable` counts it out at once.

  THE BOOKS are right in every state of a run (`pool_accounting`).  `put` has a branch for a full
  channel.  It is never taken: the connection that comes back is one of at most `maxCap` that are
  counted, so the others do not fill the channel.

  `total` is an `int32`, and the capacity is compared as an `int32`.  The books are right for any
  capacity all the same: the comparison is only wrong in that it may refuse to create a connection.

  The world outside is the factory and the connections: `made` counts what the factory has made (it
  makes connection 0, 1, 2, …), and `closed` lists the connections that have been closed.
-/
import Mathlib.Data.List.Nodup
import Mathlib.Data.List.Perm.Basic
import InfluxCluster.Lib.Lockstep

namespace InfluxCluster.Cluster

open InfluxCluster.Lib

/-! ## The pool -/

/-- A connection (`net.Conn`, not nil). -/
abbrev Conn := Nat

inductive PoolErr
  /-- "invalid capacity settings". -/
  | invalidCapacity
  /-- "factory is not able to fill the pool: e". -/
  | notFilled (e : String)
  /-- `pool.ErrClosed`. -/
  | errClosed
  /-- The error of the factory. -/
  | factory (e : String)
  /-- "timed out waiting for free connection". -/
  | timedOut
  /-- "connection is nil. rejecting". -/
  | nilConn
  deriving DecidableEq

/-- What a call of the factory comes to: a connection, or an error. -/
abbrev Dialed := Except String Unit

/-- `int32(n)`, of `2 ^ 32` values. -/
def int32 (n : Int) : Int := n.bmod 4294967296

/-- `type boundedPool struct`, and the world outside. -/
structure BoundedPool where
  /-- What is in the channel, in order; `none` is the nil channel of a closed pool. -/
  conns : Option (List Conn)
  /-- `cap(c.conns)`. -/
  cap : Nat
  total : Int
  made : Nat
  closed : List Conn
  deriving DecidableEq

namespace BoundedPool

/-- A pool with no connections. -/
def empty (maxCap : Nat) : BoundedPool :=
  { conns := some [], cap := maxCap, total := 0, made := 0, closed := [] }

/-- The factory makes a connection, the one with the number `c.made`. -/
def dial (c : BoundedPool) : BoundedPool := { c with made := c.made + 1 }

/-- `atomic.AddInt32(&c.total, 1)`. -/
def count (c : BoundedPool) : BoundedPool := { c with total := int32 (c.total + 1) }

/-- `atomic.AddInt32(&c.total, -1)`. -/
def discount (c : BoundedPool) : BoundedPool := { c with total := int32 (c.total - 1) }

/-- `conn.Close()` of the connection itself. -/
def hangUp (c : BoundedPool) (conn : Conn) : BoundedPool := { c with closed := conn :: c.closed }

/-- `atomic.LoadInt32(&c.total) < int32(cap(conns))`. -/
def mayCreate (c : BoundedPool) : Bool := c.total < int32 c.cap

/-- `Close` of the pool. -/
def close (c : BoundedPool) : BoundedPool :=
  match c.conns with
  | none => c
  | some idle => { c with conns := none, closed := idle.reverse ++ c.closed }

/-- The loop of `NewBoundedPool`, over what the calls of the factory come to. -/
def fill : List Dialed → BoundedPool → Except PoolErr Unit × BoundedPool
  | [], c => (.ok (), c)
  | .error e :: _, c => (.error (.notFilled e), c.close)
  | .ok () :: calls, c => fill calls ({ c.dial with conns := c.conns.map (· ++ [c.made]) }.count)

/-- `NewBoundedPool`. -/
def newBoundedPool (initialCap maxCap : Int) (factory : Nat → Dialed) : Except PoolErr BoundedPool :=
  if initialCap < 0 ∨ maxCap ≤ 0 ∨ initialCap > maxCap then .error .invalidCapacity
  else
    match fill ((List.range initialCap.toNat).map factory) (empty maxCap.toNat) with
    | (.ok (), c) => .ok c
    | (.error e, _) => .error e

/-- `Get`, when nobody else uses the pool: a wait ends with the timeout. -/
def get (c : BoundedPool) (dialed : Dialed) : Except PoolErr Conn × BoundedPool :=
  match c.conns with
  | none => (.error .errClosed, c)
  | some (conn :: idle) => (.ok conn, { c with conns := some idle })
  | some [] =>
    if c.mayCreate then
      match dialed with
      | .error e => (.error (.factory e), c)
      | .ok () => (.ok c.made, c.dial.count)
    else (.error .timedOut, c)

/-- `put`. -/
def put (c : BoundedPool) (conn : Option Conn) : Except PoolErr Unit × BoundedPool :=
  match conn with
  | none => (.error .nilConn, c)
  | some conn =>
    match c.conns with
    | none => (.ok (), c.hangUp conn)
    | some idle =>
      if idle.length < c.cap then (.ok (), { c with conns := some (idle ++ [conn]) })
      -- the pool is full
      else (.ok (), c.discount.hangUp conn)

end BoundedPool

/-- `type pooledConn struct`: a borrowed connection. -/
structure PooledConn where
  conn : Conn
  unusable : Bool
  deriving DecidableEq

/-- `pooledConn.Close`. -/
def PooledConn.close (p : PooledConn) (c : BoundedPool) : Except PoolErr Unit × BoundedPool :=
  if p.unusable then (.ok (), c.hangUp p.conn) else c.put (some p.conn)

/-- `pooledConn.MarkUnusable`. -/
def PooledConn.markUnusable (p : PooledConn) (c : BoundedPool) : PooledConn × BoundedPool :=
  ({ p with unusable := true }, c.discount)

/-! ## Runs -/

/-- A pool and those of its connections that are borrowed. -/
structure Lending where
  pool : BoundedPool
  borrowed : List PooledConn

/-- The calls: `Get`, and `Close` and `MarkUnusable` of the `i`-th borrowed connection. -/
inductive PoolCall
  | get (dialed : Dialed)
  | close (i : Nat)
  | markUnusable (i : Nat)

/-- One call.  A borrowed connection is closed once, and marked at most once and before. -/
def Lending.step (l : Lending) : PoolCall → Option Lending
  | .get dialed =>
    match l.pool.get dialed with
    | (.ok conn, c) =>
      some { pool := c, borrowed := { conn := conn, unusable := false } :: l.borrowed }
    | (.error _, c) => some { l with pool := c }
  | .close i =>
    match l.borrowed[i]? with
    | none => none
    | some p => some { pool := (p.close l.pool).2, borrowed := l.borrowed.eraseIdx i }
  | .markUnusable i =>
    match l.borrowed[i]? with
    | none => none
    | some p =>
      if p.unusable then none
      else some {
        pool := (p.markUnusable l.pool).2
        borrowed := l.borrowed.set i (p.markUnusable l.pool).1 }

/-! ## The books -/

/-- How many of the borrowed connections are not marked. -/
def usable (borrowed : List PooledConn) : Nat := borrowed.countP fun p => !p.unusable

/-- **The books are right**: `total` counts the idle and the usable borrowed connections, which are
    at most `cap`; all connections in use are different, and there are no others that are open. -/
structure Accounted (c : BoundedPool) (idle : List Conn) (borrowed : List PooledConn) : Prop where
  conns_eq : c.conns = some idle
  total_eq : c.total = int32 (idle.length + usable borrowed : Nat)
  bound : idle.length + usable borrowed ≤ c.cap
  nodup : (idle ++ borrowed.map PooledConn.conn).Nodup
  made : ∀ conn ∈ idle ++ borrowed.map PooledConn.conn, conn < c.made
  kept : ∀ conn < c.made, conn ∉ c.closed → conn ∈ idle ++ borrowed.map PooledConn.conn

section Books

variable {c c' : BoundedPool} {idle : List Conn} {borrowed borrowed' : List PooledConn}
  {p : PooledConn}

/-- The order in which connections were borrowed does not matter. -/
theorem Accounted.perm (h : Accounted c idle borrowed) (hp : borrowed.Perm borrowed') :
    Accounted c idle borrowed' := by
  have hcount : usable borrowed' = usable borrowed := (hp.countP_eq _).symm
  have hconns : (idle ++ borrowed.map PooledConn.conn).Perm (idle ++ borrowed'.map PooledConn.conn) :=
    (hp.map _).append_left idle
  refine ⟨h.conns_eq, ?_, ?_, hconns.nodup_iff.mp h.nodup, fun conn hconn => ?_,
    fun conn hconn hopen => hconns.mem_iff.mp (h.kept conn hconn hopen)⟩
  · rw [hcount]
    exact h.total_eq
  · rw [hcount]
    exact h.bound
  · exact h.made conn (hconns.mem_iff.mpr hconn)

theorem usable_cons (p : PooledConn) (borrowed : List PooledConn) :
    usable (p :: borrowed) = usable borrowed + if p.unusable then 0 else 1 := by
  rw [usable, List.countP_cons]
  cases p.unusable <;> rfl

theorem int32_add_one (n : Nat) : int32 (int32 n + 1) = int32 (n + 1 : Nat) := by
  rw [int32, int32, Int.bmod_add_bmod]
  rfl

theorem int32_sub_one (n : Nat) : int32 (int32 (n + 1 : Nat) - 1) = int32 n := by
  rw [int32, int32, Int.bmod_sub_bmod, Int.natCast_succ, Int.add_sub_cancel]
  rfl

/-- As an `int32`, a number is at most what it is. -/
theorem int32_le (n : Nat) : int32 n ≤ n := by
  rw [int32, Int.bmod_def]
  split_ifs <;> omega

/-- A number below `2 ^ 31` is what it is. -/
theorem int32_of_lt {n : Nat} (h : n < 2147483648) : int32 n = n :=
  Int.bmod_eq_of_le (by omega) (by omega)

/-- An idle connection is handed out. -/
theorem get_idle {conn : Conn} (h : c.conns = some (conn :: idle)) (dialed : Dialed) :
    c.get dialed = (.ok conn, { c with conns := some idle }) := by
  simp only [BoundedPool.get, h]

/-- Without one a new connection is made, up to the limit. -/
theorem get_empty (h : c.conns = some []) (dialed : Dialed) : c.get dialed = if c.mayCreate then
      match dialed with
      | .error e => (.error (.factory e), c)
      | .ok () => (.ok c.made, c.dial.count)
    else (.error .timedOut, c) := by
  simp only [BoundedPool.get, h]

/-- An idle connection is borrowed. -/
theorem Accounted.take {conn : Conn} (h : Accounted c (conn :: idle) borrowed) :
    Accounted { c with conns := some idle } idle ({ conn := conn, unusable := false } :: borrowed) := by
  have hperm : (conn :: idle ++ borrowed.map PooledConn.conn).Perm
      (idle ++ (conn :: borrowed.map PooledConn.conn)) := List.perm_middle.symm
  have hsum : idle.length + usable ({ conn := conn, unusable := false } :: borrowed)
      = (conn :: idle).length + usable borrowed := by
    rw [usable_cons, List.length_cons]
    show idle.length + (usable borrowed + 1) = _
    omega
  refine ⟨rfl, ?_, ?_, hperm.nodup_iff.mp h.nodup, fun x hx => h.made x (hperm.mem_iff.mpr hx),
    fun x hx hopen => hperm.mem_iff.mp (h.kept x hx hopen)⟩
  · rw [hsum]
    exact h.total_eq
  · rw [hsum]
    exact h.bound

/-- A new connection is borrowed. -/
theorem Accounted.create (h : Accounted c [] borrowed) (hcap : c.mayCreate = true) :
    Accounted c.dial.count [] ({ conn := c.made, unusable := false } :: borrowed) := by
  have hsum : usable ({ conn := c.made, unusable := false } :: borrowed) = usable borrowed + 1 :=
    usable_cons _ _
  have hbound := h.bound
  have htotal := h.total_eq
  rw [List.length_nil, Nat.zero_add] at hbound htotal
  -- numbers that are different as `int32` are different
  have hne : usable borrowed ≠ c.cap := fun he => by
    rw [BoundedPool.mayCreate, htotal, he, decide_eq_true_eq] at hcap
    exact Int.lt_irrefl _ hcap
  refine ⟨h.conns_eq, ?_, ?_, ?_, fun x hx => ?_, fun x hx hopen => ?_⟩
  · rw [List.length_nil, Nat.zero_add, hsum, ← int32_add_one, ← htotal]
    rfl
  · rw [List.length_nil, Nat.zero_add, hsum]
    show usable borrowed + 1 ≤ c.cap
    omega
  · refine List.nodup_cons.mpr ⟨fun hmem => ?_, h.nodup⟩
    exact absurd (h.made _ hmem) (Nat.lt_irrefl _)
  · rcases List.mem_cons.mp hx with rfl | hx
    · exact Nat.lt_succ_self _
    · exact Nat.lt_succ_of_lt (h.made x hx)
  · rcases Nat.lt_succ_iff_lt_or_eq.mp hx with hlt | rfl
    · exact List.mem_cons_of_mem _ (h.kept x hlt hopen)
    · exact List.mem_cons_self

/-- **The channel is not full when a usable connection comes back.** -/
theorem Accounted.not_full (h : Accounted c idle (p :: borrowed)) (hp : p.unusable = false) :
    idle.length < c.cap := by
  have hbound := h.bound
  rw [usable_cons, hp] at hbound
  show idle.length + 1 ≤ c.cap
  exact Nat.le_trans (Nat.add_le_add_left (Nat.le_add_left 1 _) _) hbound

/-- A connection that is marked is closed, and a slot is free. -/
theorem Accounted.close_unusable (h : Accounted c idle (p :: borrowed)) (hp : p.unusable = true) :
    Accounted (c.hangUp p.conn) idle borrowed := by
  have hsum : usable (p :: borrowed) = usable borrowed := by
    rw [usable_cons, hp]
    rfl
  have hperm : (idle ++ (p :: borrowed).map PooledConn.conn).Perm
      (p.conn :: (idle ++ borrowed.map PooledConn.conn)) := List.perm_middle
  refine ⟨h.conns_eq, ?_, ?_, (List.nodup_cons.mp (hperm.nodup_iff.mp h.nodup)).2, fun x hx => ?_,
    fun x hx hopen => ?_⟩
  · rw [← hsum]
    exact h.total_eq
  · rw [← hsum]
    exact h.bound
  · exact h.made x (hperm.mem_iff.mpr (List.mem_cons_of_mem _ hx))
  · have hmem := h.kept x hx (List.not_mem_of_not_mem_cons hopen)
    exact (List.mem_cons.mp (hperm.mem_iff.mp hmem)).resolve_left (List.ne_of_not_mem_cons hopen)

/-- A usable connection comes back. -/
theorem Accounted.close_usable (h : Accounted c idle (p :: borrowed)) (hp : p.unusable = false) :
    Accounted { c with conns := some (idle ++ [p.conn]) } (idle ++ [p.conn]) borrowed := by
  have hsum : (idle ++ [p.conn]).length + usable borrowed = idle.length + usable (p :: borrowed) := by
    rw [usable_cons, hp, List.length_append, List.length_singleton]
    show _ = idle.length + (usable borrowed + 1)
    omega
  have hconns : idle ++ [p.conn] ++ borrowed.map PooledConn.conn
      = idle ++ (p :: borrowed).map PooledConn.conn := by
    rw [List.append_assoc]
    rfl
  refine ⟨rfl, ?_, ?_, ?_, ?_, ?_⟩
  · rw [hsum]
    exact h.total_eq
  · rw [hsum]
    exact h.bound
  · rw [hconns]
    exact h.nodup
  · rw [hconns]
    exact h.made
  · rw [hconns]
    exact h.kept

/-- A connection is counted out. -/
theorem Accounted.mark (h : Accounted c idle (p :: borrowed)) (hp : p.unusable = false) :
    Accounted c.discount idle ({ p with unusable := true } :: borrowed) := by
  have hsum : usable ({ p with unusable := true } :: borrowed) = usable borrowed := usable_cons _ _
  have htotal := h.total_eq
  have hbound := h.bound
  have hold : usable (p :: borrowed) = usable borrowed + 1 := by
    rw [usable_cons, hp]
    rfl
  rw [hold, ← Nat.add_assoc] at htotal hbound
  refine ⟨h.conns_eq, ?_, ?_, h.nodup, h.made, h.kept⟩
  · rw [hsum, ← int32_sub_one, ← htotal]
    rfl
  · rw [hsum]
    exact Nat.le_of_succ_le hbound

end Books

/-! ## One call, and all of them -/

/-- A `Get`, whatever the factory answers. -/
theorem Accounted.get_step {l l' : Lending} {idle : List Conn} {dialed : Dialed}
    (h : Accounted l.pool idle l.borrowed) (hstep : l.step (.get dialed) = some l') :
    (∃ idle', Accounted l'.pool idle' l'.borrowed) ∧ l'.pool.cap = l.pool.cap := by
  rw [Lending.step] at hstep
  cases idle with
  | cons conn idle =>
    rw [get_idle h.conns_eq] at hstep
    cases hstep
    exact ⟨⟨_, h.take⟩, rfl⟩
  | nil =>
    rw [get_empty h.conns_eq] at hstep
    cases hcap : l.pool.mayCreate with
    | false =>
      rw [hcap, if_neg Bool.false_ne_true] at hstep
      cases hstep
      exact ⟨⟨_, h⟩, rfl⟩
    | true =>
      rw [hcap, if_pos rfl] at hstep
      cases dialed with
      | error e =>
        cases hstep
        exact ⟨⟨_, h⟩, rfl⟩
      | ok _ =>
        cases hstep
        exact ⟨⟨_, h.create hcap⟩, rfl⟩

/-- A connection comes back. -/
theorem Accounted.close_step {l l' : Lending} {idle : List Conn} {i : Nat}
    (h : Accounted l.pool idle l.borrowed) (hstep : l.step (.close i) = some l') :
    (∃ idle', Accounted l'.pool idle' l'.borrowed) ∧ l'.pool.cap = l.pool.cap := by
  rw [Lending.step] at hstep
  cases hp : l.borrowed[i]? with
  | none =>
    rw [hp] at hstep
    cases hstep
  | some p =>
    rw [hp] at hstep
    cases hstep
    obtain ⟨hi, rfl⟩ := List.getElem?_eq_some_iff.mp hp
    have hp' := h.perm (List.getElem_cons_eraseIdx_perm hi).symm
    cases hun : l.borrowed[i].unusable with
    | true =>
      rw [PooledConn.close, hun, if_pos rfl]
      exact ⟨⟨_, hp'.close_unusable hun⟩, rfl⟩
    | false =>
      rw [PooledConn.close, hun, if_neg Bool.false_ne_true, BoundedPool.put, h.conns_eq]
      dsimp only
      rw [if_pos (hp'.not_full hun)]
      exact ⟨⟨_, hp'.close_usable hun⟩, rfl⟩

/-- A connection is marked. -/
theorem Accounted.markUnusable_step {l l' : Lending} {idle : List Conn} {i : Nat}
    (h : Accounted l.pool idle l.borrowed) (hstep : l.step (.markUnusable i) = some l') :
    (∃ idle', Accounted l'.pool idle' l'.borrowed) ∧ l'.pool.cap = l.pool.cap := by
  rw [Lending.step] at hstep
  cases hp : l.borrowed[i]? with
  | none =>
    rw [hp] at hstep
    cases hstep
  | some p =>
    rw [hp] at hstep
    dsimp only at hstep
    obtain ⟨hi, rfl⟩ := List.getElem?_eq_some_iff.mp hp
    have hp' := h.perm (List.getElem_cons_eraseIdx_perm hi).symm
    cases hun : l.borrowed[i].unusable with
    | true =>
      rw [hun, if_pos rfl] at hstep
      cases hstep
    | false =>
      rw [hun, if_neg Bool.false_ne_true] at hstep
      cases hstep
      exact ⟨⟨_, (hp'.mark hun).perm (List.set_perm_cons_eraseIdx hi _).symm⟩, rfl⟩

/-- **One call keeps the books right.** -/
theorem Accounted.step {l l' : Lending} {idle : List Conn} {call : PoolCall}
    (h : Accounted l.pool idle l.borrowed) (hstep : l.step call = some l') :
    (∃ idle', Accounted l'.pool idle' l'.borrowed) ∧ l'.pool.cap = l.pool.cap := by
  cases call with
  | get dialed => exact h.get_step hstep
  | close i => exact h.close_step hstep
  | markUnusable i => exact h.markUnusable_step hstep

/-! ## Construction -/

/-- The loop of `NewBoundedPool` that succeeds, by induction on the calls of the factory. -/
theorem Accounted.fill (calls : List Dialed) : ∀ {c c' : BoundedPool} {idle : List Conn},
    Accounted c idle [] → idle.length + calls.length ≤ c.cap →
    BoundedPool.fill calls c = (.ok (), c') → (∃ idle', Accounted c' idle' []) ∧ c'.cap = c.cap := by
  induction calls with
  | nil =>
    intro c c' idle h _ he
    cases he
    exact ⟨⟨idle, h⟩, rfl⟩
  | cons call calls ih =>
    intro c c' idle h hle he
    rw [List.length_cons] at hle
    cases call with
    | error e => cases he
    | ok _ =>
      set c₁ := ({ c.dial with conns := c.conns.map (· ++ [c.made]) } : BoundedPool).count with hc₁
      have hlen : (idle ++ [c.made]).length = idle.length + 1 := by
        rw [List.length_append, List.length_singleton]
      have htotal := h.total_eq
      have hmade := h.made
      have hnodup := h.nodup
      have hkept := h.kept
      rw [List.map_nil, List.append_nil] at hmade hnodup hkept
      have h₁ : Accounted c₁ (idle ++ [c.made]) [] := by
        refine ⟨?_, ?_, ?_, ?_, fun conn hconn => ?_, fun conn hconn hopen => ?_⟩
        · show c.conns.map (· ++ [c.made]) = _
          rw [h.conns_eq]
          rfl
        · show int32 (c.total + 1) = _
          rw [hlen, htotal]
          exact int32_add_one _
        · rw [hlen]
          show idle.length + 1 + 0 ≤ c.cap
          omega
        · rw [List.map_nil, List.append_nil]
          refine List.nodup_append.mpr ⟨hnodup, List.nodup_singleton _, fun a ha b hb => ?_⟩
          rw [List.mem_singleton.mp hb]
          exact Nat.ne_of_lt (hmade a ha)
        · rw [List.map_nil, List.append_nil] at hconn
          rcases List.mem_append.mp hconn with hconn | hconn
          · exact Nat.lt_succ_of_lt (hmade conn hconn)
          · rw [List.mem_singleton.mp hconn]
            exact Nat.lt_succ_self _
        · rw [List.map_nil, List.append_nil, List.mem_append, List.mem_singleton]
          exact (Nat.lt_succ_iff_lt_or_eq.mp hconn).imp_left fun hlt => hkept conn hlt hopen
      exact ih (c := c₁) h₁ (by rw [hlen]; show _ ≤ c.cap; omega) he

/-- **A new pool has its books right.** -/
theorem accounted_new {initialCap maxCap : Int} {factory : Nat → Dialed} {c : BoundedPool}
    (h : BoundedPool.newBoundedPool initialCap maxCap factory = .ok c) :
    (∃ idle, Accounted c idle []) ∧ (c.cap : Int) = maxCap := by
  rw [BoundedPool.newBoundedPool] at h
  split_ifs at h with hcap
  rcases hfill : BoundedPool.fill ((List.range initialCap.toNat).map factory)
    (BoundedPool.empty maxCap.toNat) with ⟨r, c'⟩
  rw [hfill] at h
  cases r with
  | error e => cases h
  | ok _ =>
    cases h
    have hempty : Accounted (BoundedPool.empty maxCap.toNat) [] [] :=
      ⟨rfl, rfl, Nat.zero_le _, List.nodup_nil, fun conn hconn => absurd hconn List.not_mem_nil,
        fun conn hconn => absurd hconn (Nat.not_lt_zero conn)⟩
    have hlen : ([] : List Conn).length + ((List.range initialCap.toNat).map factory).length
        ≤ maxCap.toNat := by
      rw [List.length_nil, List.length_map, List.length_range]
      omega
    obtain ⟨hacc, hcap'⟩ := hempty.fill _ hlen hfill
    refine ⟨hacc, ?_⟩
    rw [hcap']
    show ((maxCap.toNat : Nat) : Int) = maxCap
    omega

/-- **The books of a pool**, in every state of a run: `total` is the number of idle and of usable
    borrowed connections, as an `int32`, and the number itself if `maxCap` is one; that number is at
    most `maxCap`, and so is `total`; no connection is idle or borrowed twice; and a usable
    connection that is closed finds room in the channel. -/
theorem pool_accounting {initialCap maxCap : Int} {factory : Nat → Dialed} {c : BoundedPool}
    (hnew : BoundedPool.newBoundedPool initialCap maxCap factory = .ok c) {calls : List PoolCall}
    {l : Lending} (hrun : calls.foldlM Lending.step { pool := c, borrowed := [] } = some l) :
    ∃ idle, l.pool.conns = some idle ∧
      l.pool.total = int32 (idle.length + usable l.borrowed : Nat) ∧
      (maxCap < 2147483648 → l.pool.total = (idle.length + usable l.borrowed : Nat)) ∧
      (idle.length + usable l.borrowed : Nat) ≤ maxCap ∧ l.pool.total ≤ maxCap ∧
      (idle ++ l.borrowed.map PooledConn.conn).Nodup ∧
      ∀ p ∈ l.borrowed, p.unusable = false → idle.length < l.pool.cap := by
  obtain ⟨hacc, hcap⟩ := accounted_new hnew
  have hinv : (∃ idle, Accounted l.pool idle l.borrowed) ∧ l.pool.cap = c.cap := by
    refine foldlM_inv
      (J := fun l => (∃ idle, Accounted l.pool idle l.borrowed) ∧ l.pool.cap = c.cap) ?_
      ⟨hacc, rfl⟩ hrun
    rintro l₁ call l₂ ⟨⟨idle, h⟩, hc⟩ hstep
    obtain ⟨h', hc'⟩ := h.step hstep
    exact ⟨h', hc'.trans hc⟩
  obtain ⟨⟨idle, h⟩, hc⟩ := hinv
  have hbound := h.bound
  rw [hc] at hbound
  refine ⟨idle, h.conns_eq, h.total_eq, fun hsmall => ?_, by omega, ?_, h.nodup,
    fun p hp hun => ?_⟩
  · rw [h.total_eq]
    exact int32_of_lt (by omega)
  · rw [h.total_eq]
    have := int32_le (idle.length + usable l.borrowed)
    omega
  · obtain ⟨i, hi, rfl⟩ := List.mem_iff_getElem.mp hp
    exact (h.perm (List.getElem_cons_eraseIdx_perm hi).symm).not_full hun

/-- A pool of two: two connections are borrowed, a third `Get` times out, one is marked and closed,
    the other is closed, and it is lent again. -/
theorem pool_accounting_two : ∃ c l, BoundedPool.newBoundedPool 1 2 (fun _ => .ok ()) = .ok c ∧
    [PoolCall.get (.ok ()), .get (.ok ()), .get (.ok ()), .markUnusable 0, .close 0, .close 0,
      .get (.error "refused")].foldlM Lending.step { pool := c, borrowed := [] } = some l ∧
    l.pool.total = 1 ∧ ∃ idle, l.pool.conns = some idle ∧
      l.pool.total = (idle.length + usable l.borrowed : Nat) := by
  set c : BoundedPool := { conns := some [0], cap := 2, total := 1, made := 1, closed := [] } with hc
  set calls := [PoolCall.get (.ok ()), .get (.ok ()), .get (.ok ()), .markUnusable 0, .close 0,
    .close 0, .get (.error "refused")] with hcalls
  have hnew : BoundedPool.newBoundedPool 1 2 (fun _ => .ok ()) = .ok c := by decide +kernel
  obtain ⟨l, hl⟩ := Option.isSome_iff_exists.mp
    (show (calls.foldlM Lending.step { pool := c, borrowed := [] }).isSome from by decide +kernel)
  have htotal : (calls.foldlM Lending.step { pool := c, borrowed := [] }).map (fun l => l.pool.total)
      = some 1 := by
    decide +kernel
  rw [hl] at htotal
  obtain ⟨idle, hconns, -, hcount, -⟩ := pool_accounting hnew hl
  exact ⟨c, l, hnew, hl, Option.some.inj htotal, idle, hconns, hcount (by decide)⟩

end InfluxCluster.Cluster
