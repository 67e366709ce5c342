/-
  The pool of connections to a node (`cluster/pool.go`), used by several callers at once.

  `Get` loads `total`, compares it with the capacity, calls the factory, and counts the new
  connection AFTER THAT.  Between the load and the increment other calls may load the same `total`
  and pass the same comparison.  Each of them makes a connection, and so there may be more than
  `maxCap` of them.

  The calls are cut where others may come between: at the receive from the channel, the load, the
  call of the factory and the increment.  `put` holds the lock of the pool and is one step.

  WHEN THE BOUND HOLDS.  A call that has passed the comparison and has not counted yet is PENDING.
  If every load that passes the comparison finds fewer than `maxCap` connections that are idle or
  borrowed and calls that are pending, there are never more than `maxCap` connections
  (`pool_bound_of_spare`).  One call at a time always finds that (`Contained.spare_of_none_pending`),
  and does what `BoundedPool.get` does (`get_alone`).
-/
import InfluxCluster.Cluster.Pool

namespace InfluxCluster.Cluster

open InfluxCluster.Lib

/-! ## The steps of the calls -/

/-- Where a call of `Get` is. -/
inductive Place
  /-- Before its first receive from the channel, which does not wait. -/
  | receiving
  /-- The channel was empty; before the load of `total`. -/
  | loading
  /-- There is room; before the call of the factory. -/
  | dialing
  /-- The factory has made the connection; before the increment. -/
  | counting (conn : Conn)
  /-- There is no room; before the second receive, which waits until the timeout. -/
  | waiting
  /-- The call has returned the connection, and its borrower has it. -/
  | holding (conn : Conn)
  /-- The call has returned an error, or the borrower has closed the connection. -/
  | returned
  deriving DecidableEq

/-- A pool, and all calls of `Get` so far. -/
structure Race where
  pool : BoundedPool
  calls : List Place

/-- The steps: a new call, and those of the `i`-th call.  The last one is the `Close` of the
    connection that it has returned. -/
inductive RaceStep
  | call
  | receive (i : Nat)
  | load (i : Nat)
  | dial (i : Nat) (dialed : Dialed)
  | count (i : Nat)
  | timeout (i : Nat)
  | put (i : Nat)

/-- The `i`-th call goes on to that place. -/
def Race.goto (r : Race) (i : Nat) (place : Place) (pool : BoundedPool) : Race :=
  { pool := pool, calls := r.calls.set i place }

/-- One step; `none` if the call is not there, or would wait. -/
def Race.step (r : Race) : RaceStep → Option Race
  | .call => some { r with calls := r.calls ++ [.receiving] }
  | .receive i =>
    match r.calls[i]?, r.pool.conns with
    | some .receiving, some (conn :: idle) =>
      some (r.goto i (.holding conn) { r.pool with conns := some idle })
    | some .receiving, some [] => some (r.goto i .loading r.pool)
    | some .receiving, none => some (r.goto i .returned r.pool)
    | some .waiting, some (conn :: idle) =>
      some (r.goto i (.holding conn) { r.pool with conns := some idle })
    | _, _ => none
  | .load i =>
    match r.calls[i]? with
    | some .loading => some (r.goto i (if r.pool.mayCreate then .dialing else .waiting) r.pool)
    | _ => none
  | .dial i dialed =>
    match r.calls[i]?, dialed with
    | some .dialing, .ok () => some (r.goto i (.counting r.pool.made) r.pool.dial)
    | some .dialing, .error _ => some (r.goto i .returned r.pool)
    | _, _ => none
  | .count i =>
    match r.calls[i]? with
    | some (.counting conn) => some (r.goto i (.holding conn) r.pool.count)
    | _ => none
  | .timeout i =>
    match r.calls[i]? with
    | some .waiting => some (r.goto i .returned r.pool)
    | _ => none
  | .put i =>
    match r.calls[i]? with
    | some (.holding conn) => some (r.goto i .returned (r.pool.put (some conn)).2)
    | _ => none

/-! ## Counting -/

/-- The connections that the factory has made and that are not closed. -/
def BoundedPool.alive (c : BoundedPool) : Nat :=
  (List.range c.made).countP fun conn => conn ∉ c.closed

/-- The connection that the call has. -/
def Place.conns : Place → List Conn
  | .counting conn | .holding conn => [conn]
  | .receiving | .loading | .dialing | .waiting | .returned => []

/-- The connection of the call is borrowed. -/
def Place.holds : Place → Bool
  | .holding _ => true
  | .receiving | .loading | .dialing | .counting _ | .waiting | .returned => false

/-- The call has passed the comparison, and has not counted yet. -/
def Place.pending : Place → Bool
  | .dialing | .counting _ => true
  | .receiving | .loading | .waiting | .holding _ | .returned => false

/-- How many connections are idle or borrowed. -/
def Race.inUse (r : Race) : Nat := (r.pool.conns.getD []).length + r.calls.countP Place.holds

/-- **A load that passes the comparison finds room for its connection**, next to those that are in
    use and those of the pending calls. -/
def SpareAtLoad (r : Race) : RaceStep → Prop
  | .load _ => r.pool.mayCreate = true → r.inUse + r.calls.countP Place.pending < r.pool.cap
  | .call | .receive _ | .dial _ _ | .count _ | .timeout _ | .put _ => True

instance (r : Race) (op : RaceStep) : Decidable (SpareAtLoad r op) :=
  match op with
  | .load _ => inferInstanceAs (Decidable (_ → _))
  | .call | .receive _ | .dial _ _ | .count _ | .timeout _ | .put _ => isTrue trivial

/-- What is kept: `total` counts what is in use, there is room for the pending calls, and every
    connection that is alive is idle or at a call. -/
structure Contained (c : BoundedPool) (idle : List Conn) (calls : List Place) : Prop where
  conns_eq : c.conns = some idle
  total_eq : c.total = int32 (idle.length + calls.countP Place.holds : Nat)
  bound : idle.length + calls.countP Place.holds + calls.countP Place.pending ≤ c.cap
  kept : ∀ conn < c.made, conn ∉ c.closed → conn ∈ idle ∨ ∃ place ∈ calls, conn ∈ place.conns

section Counting

variable {c : BoundedPool} {idle : List Conn} {calls calls' : List Place} {rest : List Place}

theorem Contained.perm (h : Contained c idle calls) (hp : calls.Perm calls') :
    Contained c idle calls' := by
  refine ⟨h.conns_eq, ?_, ?_, fun conn hconn hopen => ?_⟩
  · rw [← hp.countP_eq]
    exact h.total_eq
  · rw [← hp.countP_eq, ← hp.countP_eq]
    exact h.bound
  · refine (h.kept conn hconn hopen).imp_right ?_
    rintro ⟨place, hplace, hmem⟩
    exact ⟨place, hp.mem_iff.mp hplace, hmem⟩

/-- A call that changes nothing in the pool goes on, and becomes pending only if there is room. -/
theorem Contained.move {a b : Place} (h : Contained c idle (a :: rest)) (hholds : b.holds = a.holds)
    (hconns : b.conns = a.conns)
    (hroom : idle.length + (b :: rest).countP Place.holds + (b :: rest).countP Place.pending ≤ c.cap) :
    Contained c idle (b :: rest) := by
  refine ⟨h.conns_eq, ?_, hroom, fun conn hconn hopen => ?_⟩
  · rw [List.countP_cons, hholds, ← List.countP_cons]
    exact h.total_eq
  · refine (h.kept conn hconn hopen).imp_right ?_
    rintro ⟨place, hplace, hmem⟩
    rcases List.mem_cons.mp hplace with rfl | hplace
    · exact ⟨b, List.mem_cons_self, by rw [hconns]; exact hmem⟩
    · exact ⟨place, List.mem_cons_of_mem b hplace, hmem⟩

/-- A call has a connection only if it is a borrower or pending. -/
theorem length_conns_le (calls : List Place) : (calls.flatMap Place.conns).length
    ≤ calls.countP Place.holds + calls.countP Place.pending := by
  induction calls with
  | nil => exact Nat.le_refl 0
  | cons place calls ih =>
    have hone : place.conns.length
        ≤ (if place.holds = true then 1 else 0) + if place.pending = true then 1 else 0 := by
      cases place <;> simp [Place.conns, Place.holds, Place.pending]
    rw [List.flatMap_cons, List.length_append, List.countP_cons, List.countP_cons]
    omega

/-- **There are not more connections alive than the capacity.** -/
theorem Contained.alive_le (h : Contained c idle calls) : c.alive ≤ c.cap := by
  have hsub : (List.range c.made).filter (fun conn => conn ∉ c.closed)
      ⊆ idle ++ calls.flatMap Place.conns := by
    intro conn hconn
    rw [List.mem_filter, List.mem_range, decide_eq_true_eq] at hconn
    rcases h.kept conn hconn.1 hconn.2 with hmem | ⟨place, hplace, hmem⟩
    · exact List.mem_append_left _ hmem
    · exact List.mem_append_right _ (List.mem_flatMap.mpr ⟨place, hplace, hmem⟩)
  have hlen := (List.subperm_of_subset (List.nodup_range.filter _) hsub).length_le
  have hplaces := length_conns_le calls
  have hbound := h.bound
  rw [BoundedPool.alive, List.countP_eq_length_filter]
  rw [List.length_append] at hlen
  omega

/-- A load that passes the comparison when no call is pending finds room. -/
theorem Contained.spare_of_none_pending (h : Contained c idle calls)
    (hnone : calls.countP Place.pending = 0) (hcap : c.mayCreate = true) :
    idle.length + calls.countP Place.holds + calls.countP Place.pending < c.cap := by
  have hbound := h.bound
  have hne : idle.length + calls.countP Place.holds ≠ c.cap := fun he => by
    rw [BoundedPool.mayCreate, h.total_eq, he, decide_eq_true_eq] at hcap
    exact Int.lt_irrefl _ hcap
  omega

/-! ## One step -/

/-- A call takes an idle connection. -/
theorem Contained.take {a : Place} {conn : Conn} (h : Contained c (conn :: idle) (a :: rest))
    (ha : a = .receiving ∨ a = .waiting) :
    Contained { c with conns := some idle } idle (.holding conn :: rest) := by
  have hholds : (a :: rest).countP Place.holds = rest.countP Place.holds := by
    rcases ha with rfl | rfl <;> exact List.countP_cons_of_neg Bool.false_ne_true
  have hpending : (a :: rest).countP Place.pending = rest.countP Place.pending := by
    rcases ha with rfl | rfl <;> exact List.countP_cons_of_neg Bool.false_ne_true
  have hempty : a.conns = [] := by
    rcases ha with rfl | rfl <;> rfl
  have hnew : (Place.holding conn :: rest).countP Place.holds = rest.countP Place.holds + 1 :=
    List.countP_cons_of_pos rfl
  have hnewPending : (Place.holding conn :: rest).countP Place.pending = rest.countP Place.pending :=
    List.countP_cons_of_neg Bool.false_ne_true
  have hbound := h.bound
  have htotal := h.total_eq
  rw [hholds, List.length_cons] at htotal
  rw [hholds, hpending, List.length_cons] at hbound
  refine ⟨rfl, ?_, ?_, fun x hx hopen => ?_⟩
  · rw [hnew, ← Nat.add_assoc, Nat.add_right_comm]
    exact htotal
  · rw [hnew, hnewPending]
    show _ ≤ c.cap
    omega
  · rcases h.kept x hx hopen with hmem | ⟨place, hplace, hmem⟩
    · rcases List.mem_cons.mp hmem with rfl | hmem
      · exact .inr ⟨_, List.mem_cons_self, List.mem_cons_self⟩
      · exact .inl hmem
    · rcases List.mem_cons.mp hplace with rfl | hplace
      · rw [hempty] at hmem
        cases hmem
      · exact .inr ⟨place, List.mem_cons_of_mem _ hplace, hmem⟩

/-- The factory makes a connection for a pending call. -/
theorem Contained.dial (h : Contained c idle (.dialing :: rest)) :
    Contained c.dial idle (.counting c.made :: rest) := by
  refine ⟨h.conns_eq, h.total_eq, h.bound, fun x hx hopen => ?_⟩
  rcases Nat.lt_succ_iff_lt_or_eq.mp hx with hlt | rfl
  · refine (h.kept x hlt hopen).imp_right ?_
    rintro ⟨place, hplace, hmem⟩
    rcases List.mem_cons.mp hplace with rfl | hplace
    · cases hmem
    · exact ⟨place, List.mem_cons_of_mem _ hplace, hmem⟩
  · exact .inr ⟨_, List.mem_cons_self, List.mem_cons_self⟩

/-- A pending call counts its connection and returns it. -/
theorem Contained.count {conn : Conn} (h : Contained c idle (.counting conn :: rest)) :
    Contained c.count idle (.holding conn :: rest) := by
  have htotal := h.total_eq
  have hbound := h.bound
  rw [List.countP_cons_of_neg Bool.false_ne_true] at htotal
  rw [List.countP_cons_of_neg Bool.false_ne_true, List.countP_cons_of_pos rfl] at hbound
  refine ⟨h.conns_eq, ?_, ?_, fun x hx hopen => ?_⟩
  · rw [List.countP_cons_of_pos rfl, ← Nat.add_assoc, ← int32_add_one, ← htotal]
    rfl
  · rw [List.countP_cons_of_pos rfl, List.countP_cons_of_neg Bool.false_ne_true]
    show _ ≤ c.cap
    omega
  · refine (h.kept x hx hopen).imp_right ?_
    rintro ⟨place, hplace, hmem⟩
    rcases List.mem_cons.mp hplace with rfl | hplace
    · exact ⟨_, List.mem_cons_self, hmem⟩
    · exact ⟨place, List.mem_cons_of_mem _ hplace, hmem⟩

/-- A connection is put back: there is room in the channel. -/
theorem Contained.put {conn : Conn} (h : Contained c idle (.holding conn :: rest)) :
    (c.put (some conn)).2 = { c with conns := some (idle ++ [conn]) } ∧
      Contained { c with conns := some (idle ++ [conn]) } (idle ++ [conn]) (.returned :: rest) := by
  have htotal := h.total_eq
  have hbound := h.bound
  rw [List.countP_cons_of_pos rfl] at htotal
  rw [List.countP_cons_of_pos rfl, List.countP_cons_of_neg Bool.false_ne_true] at hbound
  have hlen : (idle ++ [conn]).length = idle.length + 1 := by
    rw [List.length_append, List.length_singleton]
  refine ⟨?_, rfl, ?_, ?_, fun x hx hopen => ?_⟩
  · rw [BoundedPool.put, h.conns_eq]
    dsimp only
    rw [if_pos (by omega)]
  · rw [List.countP_cons_of_neg Bool.false_ne_true, hlen, Nat.add_right_comm, Nat.add_assoc]
    exact htotal
  · rw [List.countP_cons_of_neg Bool.false_ne_true, List.countP_cons_of_neg Bool.false_ne_true, hlen]
    show _ ≤ c.cap
    omega
  · rcases h.kept x hx hopen with hmem | ⟨place, hplace, hmem⟩
    · exact .inl (List.mem_append_left _ hmem)
    · rcases List.mem_cons.mp hplace with rfl | hplace
      · exact .inl (List.mem_append_right _ hmem)
      · exact .inr ⟨place, List.mem_cons_of_mem _ hplace, hmem⟩

end Counting

/-- A new call. -/
theorem Contained.call {c : BoundedPool} {idle : List Conn} {calls : List Place}
    (h : Contained c idle calls) : Contained c idle (calls ++ [.receiving]) := by
  have hcount : ∀ f : Place → Bool, f .receiving = false →
      (calls ++ [Place.receiving]).countP f = calls.countP f := fun f hf => by
    rw [List.countP_append, List.countP_singleton, hf, if_neg Bool.false_ne_true, Nat.add_zero]
  refine ⟨h.conns_eq, ?_, ?_, fun conn hconn hopen => ?_⟩
  · rw [hcount Place.holds rfl]
    exact h.total_eq
  · rw [hcount Place.holds rfl, hcount Place.pending rfl]
    exact h.bound
  · refine (h.kept conn hconn hopen).imp_right ?_
    rintro ⟨place, hplace, hmem⟩
    exact ⟨place, List.mem_append_left _ hplace, hmem⟩

/-- The `i`-th call is somewhere, and goes on. -/
theorem Contained.goto {r : Race} {idle idle' : List Conn} {i : Nat} {a b : Place}
    {pool : BoundedPool} (h : Contained r.pool idle r.calls) (hi : r.calls[i]? = some a)
    (hmove : ∀ rest, r.calls.Perm (a :: rest) → Contained r.pool idle (a :: rest) →
      Contained pool idle' (b :: rest)) :
    Contained (r.goto i b pool).pool idle' (r.goto i b pool).calls := by
  obtain ⟨hlt, rfl⟩ := List.getElem?_eq_some_iff.mp hi
  have hperm := (List.getElem_cons_eraseIdx_perm hlt).symm
  exact (hmove _ hperm (h.perm hperm)).perm (List.set_perm_cons_eraseIdx hlt b).symm

theorem put_cap (c : BoundedPool) (conn : Option Conn) : (c.put conn).2.cap = c.cap := by
  unfold BoundedPool.put
  split
  · rfl
  · split
    · rfl
    · split_ifs
      · rfl
      · rfl

theorem Contained.receive_step {r r' : Race} {idle : List Conn} {i : Nat}
    (h : Contained r.pool idle r.calls) (hstep : r.step (.receive i) = some r') :
    (∃ idle', Contained r'.pool idle' r'.calls) ∧ r'.pool.cap = r.pool.cap := by
  rw [Race.step, h.conns_eq] at hstep
  split at hstep
  · rename_i conn idle' hi he
    cases hstep
    cases he
    exact ⟨⟨idle', h.goto hi fun rest _ hr => hr.take (.inl rfl)⟩, rfl⟩
  · rename_i hi he
    cases hstep
    exact ⟨⟨idle, h.goto hi fun rest _ hr => hr.move rfl rfl hr.bound⟩, rfl⟩
  · rename_i hi he
    cases he
  · rename_i conn idle' hi he
    cases hstep
    cases he
    exact ⟨⟨idle', h.goto hi fun rest _ hr => hr.take (.inr rfl)⟩, rfl⟩
  · cases hstep

/-- Here the room is needed. -/
theorem Contained.load_step {r r' : Race} {idle : List Conn} {i : Nat}
    (h : Contained r.pool idle r.calls) (hspare : SpareAtLoad r (.load i))
    (hstep : r.step (.load i) = some r') :
    (∃ idle', Contained r'.pool idle' r'.calls) ∧ r'.pool.cap = r.pool.cap := by
  rw [Race.step] at hstep
  split at hstep
  · rename_i hi
    cases hstep
    refine ⟨⟨idle, h.goto hi fun rest hperm hr => ?_⟩, rfl⟩
    cases hcap : r.pool.mayCreate with
    | false =>
      rw [if_neg Bool.false_ne_true]
      exact hr.move rfl rfl hr.bound
    | true =>
      rw [if_pos rfl]
      refine hr.move rfl rfl ?_
      have hroom := hspare hcap
      rw [Race.inUse, h.conns_eq, Option.getD_some, hperm.countP_eq, hperm.countP_eq,
        List.countP_cons_of_neg Bool.false_ne_true,
        List.countP_cons_of_neg Bool.false_ne_true] at hroom
      rw [List.countP_cons_of_neg Bool.false_ne_true, List.countP_cons_of_pos rfl]
      omega
  · cases hstep

theorem Contained.dial_step {r r' : Race} {idle : List Conn} {i : Nat} {dialed : Dialed}
    (h : Contained r.pool idle r.calls) (hstep : r.step (.dial i dialed) = some r') :
    (∃ idle', Contained r'.pool idle' r'.calls) ∧ r'.pool.cap = r.pool.cap := by
  simp only [Race.step] at hstep
  split at hstep
  · rename_i hi
    cases hstep
    exact ⟨⟨idle, h.goto hi fun rest _ hr => hr.dial⟩, rfl⟩
  · rename_i hi
    cases hstep
    refine ⟨⟨idle, h.goto hi fun rest _ hr => hr.move rfl rfl ?_⟩, rfl⟩
    have hbound := hr.bound
    rw [List.countP_cons_of_neg Bool.false_ne_true, List.countP_cons_of_pos rfl] at hbound
    rw [List.countP_cons_of_neg Bool.false_ne_true, List.countP_cons_of_neg Bool.false_ne_true]
    omega
  · cases hstep

/-- **One step keeps the connections within the capacity**, if a load finds room. -/
theorem Contained.step {r r' : Race} {idle : List Conn} {op : RaceStep}
    (h : Contained r.pool idle r.calls) (hspare : SpareAtLoad r op) (hstep : r.step op = some r') :
    (∃ idle', Contained r'.pool idle' r'.calls) ∧ r'.pool.cap = r.pool.cap := by
  cases op with
  | call =>
    cases hstep
    exact ⟨⟨idle, h.call⟩, rfl⟩
  | receive i => exact h.receive_step hstep
  | load i => exact h.load_step hspare hstep
  | dial i dialed => exact h.dial_step hstep
  | count i =>
    rw [Race.step] at hstep
    split at hstep
    · rename_i conn hi
      cases hstep
      exact ⟨⟨idle, h.goto hi fun rest _ hr => hr.count⟩, rfl⟩
    · cases hstep
  | timeout i =>
    rw [Race.step] at hstep
    split at hstep
    · rename_i hi
      cases hstep
      exact ⟨⟨idle, h.goto hi fun rest _ hr => hr.move rfl rfl hr.bound⟩, rfl⟩
    · cases hstep
  | put i =>
    rw [Race.step] at hstep
    split at hstep
    · rename_i conn hi
      cases hstep
      refine ⟨⟨idle ++ [conn], h.goto hi fun rest _ hr => ?_⟩, put_cap _ _⟩
      obtain ⟨he, hput⟩ := hr.put
      rw [he]
      exact hput
    · cases hstep

/-! ## Whole runs -/

/-- A new pool, that nobody has called yet. -/
theorem contained_new {initialCap maxCap : Int} {factory : Nat → Dialed} {c : BoundedPool}
    (h : BoundedPool.newBoundedPool initialCap maxCap factory = .ok c) :
    (∃ idle, Contained c idle []) ∧ (c.cap : Int) = maxCap := by
  obtain ⟨⟨idle, hacc⟩, hcap⟩ := accounted_new h
  refine ⟨⟨idle, hacc.conns_eq, hacc.total_eq, hacc.bound, fun conn hconn hopen => .inl ?_⟩, hcap⟩
  have hmem := hacc.kept conn hconn hopen
  rw [List.map_nil, List.append_nil] at hmem
  exact hmem

/-- **There are never more connections than `maxCap`, if every load that passes the comparison finds
    room for its connection.** -/
theorem pool_bound_of_spare {initialCap maxCap : Int} {factory : Nat → Dialed} {c : BoundedPool}
    (hnew : BoundedPool.newBoundedPool initialCap maxCap factory = .ok c) {w : List RaceStep}
    (hspare : Along Race.step SpareAtLoad { pool := c, calls := [] } w) (k : Nat) {r : Race}
    (hrun : (w.take k).foldlM Race.step { pool := c, calls := [] } = some r) :
    (r.pool.alive : Int) ≤ maxCap := by
  obtain ⟨hcontained, hcap⟩ := contained_new hnew
  have hinv : (∃ idle, Contained r.pool idle r.calls) ∧ r.pool.cap = c.cap := by
    refine (hspare.take k).inv
      (J := fun r => (∃ idle, Contained r.pool idle r.calls) ∧ r.pool.cap = c.cap) ?_
      ⟨hcontained, rfl⟩ hrun
    rintro r₁ op r₂ ⟨⟨idle, h⟩, hc⟩ hq hstep
    obtain ⟨h', hc'⟩ := h.step hq hstep
    exact ⟨h', hc'.trans hc⟩
  obtain ⟨⟨idle, h⟩, hc⟩ := hinv
  have hle := h.alive_le
  omega

/-- Two calls at once in a pool of two, and a third that waits for a connection to come back. -/
theorem pool_bound_of_spare_three : ∃ c r, BoundedPool.newBoundedPool 0 2 (fun _ => .ok ()) = .ok c ∧
    [RaceStep.call, .call, .receive 0, .receive 1, .load 0, .load 1, .dial 0 (.ok ()),
      .dial 1 (.ok ()), .count 1, .count 0, .call, .receive 2, .load 2, .put 0,
      .receive 2].foldlM Race.step { pool := c, calls := [] } = some r ∧
    r.pool.alive = 2 ∧ (r.pool.alive : Int) ≤ 2 := by
  set w := [RaceStep.call, .call, .receive 0, .receive 1, .load 0, .load 1, .dial 0 (.ok ()),
    .dial 1 (.ok ()), .count 1, .count 0, .call, .receive 2, .load 2, .put 0, .receive 2] with hw
  have hnew : BoundedPool.newBoundedPool 0 2 (fun _ => .ok ()) = .ok (BoundedPool.empty 2) := rfl
  obtain ⟨r, hr⟩ := Option.isSome_iff_exists.mp
    (show (w.foldlM Race.step { pool := BoundedPool.empty 2, calls := [] }).isSome from by
      decide +kernel)
  have halive : (w.foldlM Race.step { pool := BoundedPool.empty 2, calls := [] }).map
      (fun r => r.pool.alive) = some 2 := by
    decide +kernel
  rw [hr] at halive
  exact ⟨_, r, hnew, hr, Option.some.inj halive,
    pool_bound_of_spare hnew (by decide +kernel : Along _ _ _ w) 15 hr⟩

/-- **More connections than the capacity**: two calls load `total` before either of them counts. -/
theorem pool_exceeds_capacity : ∃ c r, BoundedPool.newBoundedPool 0 1 (fun _ => .ok ()) = .ok c ∧
    [RaceStep.call, .call, .receive 0, .receive 1, .load 0, .load 1, .dial 0 (.ok ()),
      .dial 1 (.ok ()), .count 0, .count 1].foldlM Race.step { pool := c, calls := [] } = some r ∧
    r.pool.cap = 1 ∧ r.pool.alive = 2 ∧ r.pool.total = 2 ∧
    r.calls = [.holding 0, .holding 1] := by
  set w := [RaceStep.call, .call, .receive 0, .receive 1, .load 0, .load 1, .dial 0 (.ok ()),
    .dial 1 (.ok ()), .count 0, .count 1] with hw
  have hnew : BoundedPool.newBoundedPool 0 1 (fun _ => .ok ()) = .ok (BoundedPool.empty 1) := rfl
  obtain ⟨r, hr⟩ := Option.isSome_iff_exists.mp
    (show (w.foldlM Race.step { pool := BoundedPool.empty 1, calls := [] }).isSome from by
      decide +kernel)
  have hvals : (w.foldlM Race.step { pool := BoundedPool.empty 1, calls := [] }).map
      (fun r => (r.pool.cap, r.pool.alive, r.pool.total, r.calls))
      = some (1, 2, 2, [.holding 0, .holding 1]) := by
    decide +kernel
  rw [hr] at hvals
  obtain ⟨hcap, hrest⟩ := Prod.mk.inj (Option.some.inj hvals)
  obtain ⟨halive, hrest⟩ := Prod.mk.inj hrest
  obtain ⟨htotal, hcalls⟩ := Prod.mk.inj hrest
  exact ⟨_, r, hnew, hr, hcap, halive, htotal, hcalls⟩

/-! ## One call at a time -/

/-- What the caller has after `Get`. -/
def Place.after : Except PoolErr Conn → Place
  | .ok conn => .holding conn
  | .error _ => .returned

theorem goto_last (pool pool' : BoundedPool) (calls : List Place) (a b : Place) :
    ({ pool := pool, calls := calls ++ [a] } : Race).goto calls.length b pool'
      = { pool := pool', calls := calls ++ [b] } := by
  rw [Race.goto, List.set_append_right _ _ (Nat.le_refl _), Nat.sub_self]
  rfl

/-- **A call that nobody comes between does what `BoundedPool.get` says**, in its own steps. -/
theorem get_alone (r : Race) (dialed : Dialed) : ∃ w : List RaceStep, w.foldlM Race.step r = some
    { pool := (r.pool.get dialed).2, calls := r.calls ++ [Place.after (r.pool.get dialed).1] } := by
  obtain ⟨pool, calls⟩ := r
  rcases hconns : pool.conns with _ | _ | ⟨conn, idle⟩
  · refine ⟨[.call, .receive calls.length], ?_⟩
    simp [Race.step, goto_last, hconns, BoundedPool.get, Place.after]
  · cases hcap : pool.mayCreate with
    | false =>
      refine ⟨[.call, .receive calls.length, .load calls.length, .timeout calls.length], ?_⟩
      simp [Race.step, goto_last, hconns, hcap, BoundedPool.get, Place.after]
    | true =>
      cases dialed with
      | error e =>
        refine ⟨[.call, .receive calls.length, .load calls.length, .dial calls.length (.error e)], ?_⟩
        simp [Race.step, goto_last, hconns, hcap, BoundedPool.get, Place.after]
      | ok _ =>
        refine ⟨[.call, .receive calls.length, .load calls.length, .dial calls.length (.ok ()),
          .count calls.length], ?_⟩
        simp [Race.step, goto_last, hconns, hcap, BoundedPool.get, Place.after]
  · refine ⟨[.call, .receive calls.length], ?_⟩
    simp [Race.step, goto_last, hconns, BoundedPool.get, Place.after]

end InfluxCluster.Cluster
