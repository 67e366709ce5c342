/-
  Opening a client of the meta service (`meta/client.go`: `Open`, `retryUntilSnapshot`,
  `pollForUpdates`).

  `Open` asks one server after the other for a snapshot and comes back when it has one;
  `pollForUpdates` then does the same for ever, from the index of the copy on.  Both sit in
  `retryUntilSnapshot`, whose only other way out is that the client has been CLOSED: then there is
  no data, and no error to say so.

  With servers of this repository the first way out does not exist, since no snapshot can be
  written (`transport_answer`).  So `Open` comes back only if somebody closes the client meanwhile.
  It then puts the missing data in place and starts `pollForUpdates`, which reads its index and
  PANICS, without another request to a server (`open_never_succeeds`).
-/
import InfluxCluster.Meta.LongPoll

namespace InfluxCluster.Meta

open InfluxCluster.Lib

/-- Where a call of `retryUntilSnapshot` is. -/
inductive Retry (n : Nat)
  | head (currentServer : Nat)
  | sent (server : Fin n) (currentServer : Nat)
  | waiting (server : Fin n) (ch : Chan) (currentServer : Nat)
  | answered (body : Option Bytes) (currentServer : Nat)
  deriving DecidableEq

/-- Where a client is: in `Open`, at the head of the loop of `pollForUpdates`, or in its call of
    `retryUntilSnapshot` with the index that it read; or `pollForUpdates` has ended. -/
inductive LifePC (n : Nat)
  | opening (r : Retry n)
  | starting
  | polling (index : UInt64) (r : Retry n)
  | ended
  | panicked
  deriving DecidableEq

/-- A client from `Open` on, and the servers.  `cacheData` is a pointer. -/
structure Life (X : Type) (n : Nat) where
  servers : Fin n → Store X
  metaServers : List (Fin n)
  closed : Bool
  cacheData : Option (Data X)
  pc : LifePC n

/-- The steps of `retryUntilSnapshot`: the client looks whether it is closed and chooses a server,
    the request gets there, it is answered or fails, and the client has the answer. -/
inductive RetryOp
  | head
  | arrive
  | respond
  | fail
  | receive

/-- What happens next: a step of a server or of `retryUntilSnapshot`; `pollForUpdates` begins a
    round; or somebody closes the client. -/
inductive LifeOp (n : Nat)
  | server (k : Fin n) (op : StoreOp)
  | retry (op : RetryOp)
  | poll
  | close

/-- What comes of a step in `retryUntilSnapshot`. -/
inductive RetryStep (X : Type) (n : Nat)
  | again (r : Retry n)
  | returned (data : Option (Data X))
  | panicked

section Life

variable {X : Type} {n : Nat} (P : Protobuf) (emb : Embedded X) (config : MetaConfig)
  (C : CommandCodec) (T : Transport X)

/-- The number of the server, which starts again after the last one. -/
def Life.nextServer (s : Life X n) (currentServer : Nat) : Nat :=
  if s.metaServers.length ≤ currentServer then 0 else currentServer

/-- `retryUntilSnapshot(index)`, step by step; `none` if the call is not there. -/
def Life.retryUntilSnapshot (s : Life X n) (index : UInt64) (r : Retry n) :
    RetryOp → Option (RetryStep X n)
  | .head =>
    match r with
    | .head currentServer =>
      -- exit if we're closed
      if s.closed then some (.returned none)
      else
        match s.metaServers[s.nextServer currentServer]? with
        | none => some .panicked
        | some k => some (.again (.sent k (s.nextServer currentServer)))
    | _ => none
  | .arrive =>
    match r with
    | .sent k currentServer =>
      some (.again (.waiting k ((s.servers k).afterIndex index) currentServer))
    | _ => none
  | .respond =>
    match r with
    | .waiting k ch currentServer =>
      if (s.servers k).IsClosed ch then
        some (.again (.answered (T.answer (s.servers k).data) currentServer))
      else none
    | _ => none
  | .fail =>
    match r with
    | .sent _ currentServer | .waiting _ _ currentServer =>
      some (.again (.answered none currentServer))
    | _ => none
  | .receive =>
    match r with
    | .answered body currentServer =>
      match body.bind T.read with
      | some data => some (.returned (some data))
      | none => some (.again (.head (currentServer + 1)))
    | _ => none

/-- `Open` and `pollForUpdates`, step by step. -/
def LifeOp.step (s : Life X n) : LifeOp n → Option (Life X n)
  | .server k op =>
    (op.step P emb config C (s.servers k)).map fun t =>
      { s with servers := Function.update s.servers k t }
  | .close => some { s with closed := true }
  | .poll =>
    match s.pc with
    | .starting =>
      -- c.index() looks into the data
      match s.cacheData.bind Data.data with
      | none => some { s with pc := .panicked }
      | some m => some { s with pc := .polling m.index (.head 0) }
    | _ => none
  | .retry op =>
    match s.pc with
    | .opening r =>
      match s.retryUntilSnapshot T 0 r op with
      | some (.again r') => some { s with pc := .opening r' }
      | some (.returned data) => some { s with cacheData := data, pc := .starting }
      | some .panicked => some { s with pc := .panicked }
      | none => none
    | .polling index r =>
      match s.retryUntilSnapshot T index r op with
      | some (.again r') => some { s with pc := .polling index r' }
      -- this will only be nil if the client has been closed
      | some (.returned none) => some { s with pc := .ended }
      | some (.returned (some data)) => some { s with cacheData := some data, pc := .starting }
      | some .panicked => some { s with pc := .panicked }
      | none => none
    | _ => none

/-- `Open` begins. -/
def Life.start (servers : Fin n → Store X) (metaServers : List (Fin n)) : Life X n :=
  { servers := servers, metaServers := metaServers, closed := false, cacheData := some Data.zero,
    pc := .opening (.head 0) }

/-! ## Without an answer -/

variable {P emb config C T}

/-- No body is under way. -/
def Retry.Unanswered : Retry n → Prop
  | .answered body _ => body = none
  | .head _ | .sent _ _ | .waiting _ _ _ => True

/-- **`retryUntilSnapshot` returns only if the client is closed**, and panics only without servers. -/
theorem Life.retry_unanswered (hT : ∀ data, T.answer data = none) {s : Life X n} {index : UInt64}
    {r : Retry n} (hr : r.Unanswered) {op : RetryOp} {x : RetryStep X n}
    (h : s.retryUntilSnapshot T index r op = some x) :
    (∃ r', x = .again r' ∧ r'.Unanswered) ∨ (x = .returned none ∧ s.closed = true) ∨
      (x = .panicked ∧ s.metaServers = []) := by
  cases op with
  | head =>
    cases r with
    | sent _ _ | waiting _ _ _ | answered _ _ => cases h
    | head currentServer =>
      rw [Life.retryUntilSnapshot] at h
      by_cases hclosed : s.closed = true
      · rw [if_pos hclosed] at h
        cases h
        exact .inr (.inl ⟨rfl, hclosed⟩)
      · rw [if_neg hclosed] at h
        cases hserver : s.metaServers[s.nextServer currentServer]? with
        | some k =>
          rw [hserver] at h
          cases h
          exact .inl ⟨_, rfl, trivial⟩
        | none =>
          rw [hserver] at h
          cases h
          refine .inr (.inr ⟨rfl, ?_⟩)
          -- the number is one of a server, unless there are none
          rw [List.getElem?_eq_none_iff, Life.nextServer] at hserver
          split at hserver
          · exact List.length_eq_zero_iff.mp (Nat.le_zero.mp hserver)
          · next hlt => exact absurd hserver hlt
  | arrive =>
    cases r with
    | head _ | waiting _ _ _ | answered _ _ => cases h
    | sent k currentServer =>
      cases h
      exact .inl ⟨_, rfl, trivial⟩
  | respond =>
    cases r with
    | head _ | sent _ _ | answered _ _ => cases h
    | waiting k ch currentServer =>
      rw [Life.retryUntilSnapshot] at h
      obtain ⟨-, h⟩ := Option.ite_none_right_eq_some.mp h
      cases h
      exact .inl ⟨_, rfl, hT _⟩
  | fail =>
    cases r with
    | head _ | answered _ _ => cases h
    | sent k currentServer =>
      cases h
      exact .inl ⟨_, rfl, rfl⟩
    | waiting k ch currentServer =>
      cases h
      exact .inl ⟨_, rfl, rfl⟩
  | receive =>
    cases r with
    | head _ | sent _ _ | waiting _ _ _ => cases h
    | answered body currentServer =>
      have hbody : body = none := hr
      subst hbody
      cases h
      exact .inl ⟨_, rfl, trivial⟩

/-- The client is in `Open`, or it has been closed there, or it had no server to ask. -/
structure Life.Unopened (s : Life X n) : Prop where
  place : (∃ r, s.pc = .opening r ∧ r.Unanswered ∧ s.cacheData = some Data.zero) ∨
    (s.closed = true ∧ s.pc = .starting ∧ s.cacheData = none) ∨
    (s.pc = .panicked ∧ (s.closed = true ∨ s.metaServers = []))

/-- What a step in `retryUntilSnapshot` leads to. -/
theorem LifeOp.step_opening {s s' : Life X n} {r : Retry n} (hpc : s.pc = .opening r) {op : LifeOp n}
    (h : op.step P emb config C T s = some s') :
    (s'.pc = s.pc ∧ s'.cacheData = s.cacheData) ∨
    ∃ o x, s.retryUntilSnapshot T 0 r o = some x ∧
      s' = match x with
        | .again r' => { s with pc := .opening r' }
        | .returned data => { s with cacheData := data, pc := .starting }
        | .panicked => { s with pc := .panicked } := by
  cases op with
  | server k op =>
    obtain ⟨t, -, rfl⟩ := Option.map_eq_some_iff.mp h
    exact .inl ⟨rfl, rfl⟩
  | close =>
    cases h
    exact .inl ⟨rfl, rfl⟩
  | poll =>
    rw [LifeOp.step, hpc] at h
    cases h
  | retry o =>
    rw [LifeOp.step, hpc] at h
    dsimp only at h
    refine .inr ⟨o, ?_⟩
    cases hx : s.retryUntilSnapshot T 0 r o with
    | none =>
      rw [hx] at h
      cases h
    | some x =>
      rw [hx] at h
      refine ⟨x, rfl, ?_⟩
      cases x <;> cases h <;> rfl

/-- A step leaves a closed client closed, and the servers that it knows. -/
theorem LifeOp.step_same {s s' : Life X n} {op : LifeOp n}
    (h : op.step P emb config C T s = some s') :
    (s.closed = true → s'.closed = true) ∧ s'.metaServers = s.metaServers := by
  cases op with
  | server k op =>
    obtain ⟨t, -, rfl⟩ := Option.map_eq_some_iff.mp h
    exact ⟨fun hc => hc, rfl⟩
  | close =>
    cases h
    exact ⟨fun _ => rfl, rfl⟩
  | poll | retry o =>
    unfold LifeOp.step at h
    dsimp only at h
    repeat' split at h
    all_goals cases h
    all_goals exact ⟨fun hc => hc, rfl⟩

theorem Life.Unopened.step (hT : ∀ data, T.answer data = none) {s s' : Life X n} (h : s.Unopened)
    {op : LifeOp n} (hstep : op.step P emb config C T s = some s') : s'.Unopened := by
  obtain ⟨hclosed', hservers⟩ := LifeOp.step_same hstep
  obtain ⟨r, hpc, hr, hcache⟩ | ⟨hclosed, hpc, hcache⟩ | ⟨hpc, hwhy⟩ := h.place
  · obtain ⟨hpc', hcache'⟩ | ⟨o, x, hx, rfl⟩ := LifeOp.step_opening hpc hstep
    · exact ⟨.inl ⟨r, hpc'.trans hpc, hr, hcache'.trans hcache⟩⟩
    · obtain ⟨r', rfl, hr'⟩ | ⟨rfl, hclosed⟩ | ⟨rfl, hnone⟩ := Life.retry_unanswered hT hr hx
      · exact ⟨.inl ⟨r', rfl, hr', hcache⟩⟩
      · exact ⟨.inr (.inl ⟨hclosed, rfl, rfl⟩)⟩
      · exact ⟨.inr (.inr ⟨rfl, .inr hnone⟩)⟩
  · -- `pollForUpdates` finds no data
    cases op with
    | server k op =>
      obtain ⟨t, -, rfl⟩ := Option.map_eq_some_iff.mp hstep
      exact ⟨.inr (.inl ⟨hclosed, hpc, hcache⟩)⟩
    | close =>
      cases hstep
      exact ⟨.inr (.inl ⟨rfl, hpc, hcache⟩)⟩
    | poll =>
      rw [LifeOp.step, hpc, hcache] at hstep
      cases hstep
      exact ⟨.inr (.inr ⟨rfl, .inl hclosed⟩)⟩
    | retry o =>
      rw [LifeOp.step, hpc] at hstep
      cases hstep
  · cases op with
    | server k op =>
      obtain ⟨t, -, rfl⟩ := Option.map_eq_some_iff.mp hstep
      exact ⟨.inr (.inr ⟨hpc, hwhy⟩)⟩
    | close =>
      cases hstep
      exact ⟨.inr (.inr ⟨hpc, .inl rfl⟩)⟩
    | poll | retry o =>
      rw [LifeOp.step, hpc] at hstep
      cases hstep

/-! ## A client that is closed -/

/-- How many steps of `retryUntilSnapshot` are left to a client that is closed. -/
def Retry.left : Retry n → Nat
  | .sent _ _ => 5
  | .waiting _ _ _ => 4
  | .answered _ _ => 3
  | .head _ => 2

/-- How many steps of its own are left to a client that is closed, until it panics. -/
def LifePC.left : LifePC n → Nat
  | .opening r | .polling _ r => r.left
  | .starting => 1
  | .ended | .panicked => 0

/-- A step of the client. -/
def LifeOp.isOwn : LifeOp n → Bool
  | .retry _ | .poll => true
  | .server _ _ | .close => false

/-- A request is on its way to a server. -/
def LifePC.asks : LifePC n → Bool
  | .opening (.sent _ _) | .polling _ (.sent _ _) => true
  | _ => false

/-- **A closed client finishes the request that is under way, sends no other, and returns.** -/
theorem Life.retry_closed {s : Life X n} {index : UInt64} {r : Retry n} (hr : r.Unanswered)
    (hclosed : s.closed = true) {op : RetryOp} {x : RetryStep X n}
    (h : s.retryUntilSnapshot T index r op = some x) :
    (∃ r', x = .again r' ∧ r'.left < r.left ∧ ∀ k i, r' ≠ .sent k i) ∨
      (x = .returned none ∧ r.left = 2) := by
  cases op with
  | head =>
    cases r with
    | sent _ _ | waiting _ _ _ | answered _ _ => cases h
    | head currentServer =>
      rw [Life.retryUntilSnapshot, if_pos hclosed] at h
      cases h
      exact .inr ⟨rfl, rfl⟩
  | arrive =>
    cases r with
    | head _ | waiting _ _ _ | answered _ _ => cases h
    | sent k currentServer =>
      cases h
      exact .inl ⟨_, rfl, Nat.lt_succ_self 4, fun k i he => by cases he⟩
  | respond =>
    cases r with
    | head _ | sent _ _ | answered _ _ => cases h
    | waiting k ch currentServer =>
      rw [Life.retryUntilSnapshot] at h
      obtain ⟨-, h⟩ := Option.ite_none_right_eq_some.mp h
      cases h
      exact .inl ⟨_, rfl, Nat.lt_succ_self 3, fun k i he => by cases he⟩
  | fail =>
    cases r with
    | head _ | answered _ _ => cases h
    | sent k currentServer =>
      cases h
      exact .inl ⟨_, rfl, by simp only [Retry.left]; omega, fun k i he => by cases he⟩
    | waiting k ch currentServer =>
      cases h
      exact .inl ⟨_, rfl, Nat.lt_succ_self 3, fun k i he => by cases he⟩
  | receive =>
    cases r with
    | head _ | sent _ _ | waiting _ _ _ => cases h
    | answered body currentServer =>
      have hbody : body = none := hr
      subst hbody
      cases h
      exact .inl ⟨_, rfl, Nat.lt_succ_self 2, fun k i he => by cases he⟩

/-- **One step after the client has been closed.** -/
theorem Life.Unopened.step_closed {s s' : Life X n} (h : s.Unopened) (hclosed : s.closed = true)
    {op : LifeOp n} (hstep : op.step P emb config C T s = some s') :
    (if op.isOwn then 1 else 0) + s'.pc.left ≤ s.pc.left ∧
      (s'.pc.asks = true → s'.pc = s.pc) := by
  cases op with
  | server k op =>
    obtain ⟨t, -, rfl⟩ := Option.map_eq_some_iff.mp hstep
    exact ⟨Nat.le_of_eq (Nat.zero_add _), fun _ => rfl⟩
  | close =>
    cases hstep
    exact ⟨Nat.le_of_eq (Nat.zero_add _), fun _ => rfl⟩
  | poll =>
    obtain ⟨r, hpc, -, -⟩ | ⟨-, hpc, hcache⟩ | ⟨hpc, -⟩ := h.place
    · rw [LifeOp.step, hpc] at hstep
      cases hstep
    · rw [LifeOp.step, hpc, hcache] at hstep
      cases hstep
      rw [hpc]
      exact ⟨Nat.le_refl 1, fun hasks => Bool.noConfusion hasks⟩
    · rw [LifeOp.step, hpc] at hstep
      cases hstep
  | retry o =>
    obtain ⟨r, hpc, hr, -⟩ | ⟨-, hpc, -⟩ | ⟨hpc, -⟩ := h.place
    · rw [LifeOp.step, hpc] at hstep
      dsimp only at hstep
      rw [hpc]
      cases hx : s.retryUntilSnapshot T 0 r o with
      | none =>
        rw [hx] at hstep
        cases hstep
      | some x =>
        rw [hx] at hstep
        obtain ⟨r', rfl, hless, hsent⟩ | ⟨rfl, hleft⟩ := Life.retry_closed hr hclosed hx
        · cases hstep
          refine ⟨?_, fun hasks => ?_⟩
          · show 1 + r'.left ≤ r.left
            omega
          · cases r' with
            | sent k i => exact absurd rfl (hsent k i)
            | head _ | waiting _ _ _ | answered _ _ => exact Bool.noConfusion hasks
        · cases hstep
          refine ⟨?_, fun hasks => Bool.noConfusion hasks⟩
          show 1 + 1 ≤ r.left
          omega
    · rw [LifeOp.step, hpc] at hstep
      cases hstep
    · rw [LifeOp.step, hpc] at hstep
      cases hstep

/-- Where the client is. -/
theorem Life.Unopened.places {s : Life X n} (h : s.Unopened) :
    (s.closed = false → s.metaServers ≠ [] →
      ∃ r, s.pc = .opening r ∧ s.cacheData = some Data.zero) ∧
    s.pc.left ≤ 5 ∧ (s.pc.left = 0 ↔ s.pc = .panicked) ∧
    (∀ index r, s.pc ≠ .polling index r) ∧ s.pc ≠ .ended := by
  obtain ⟨r, hpc, -, hcache⟩ | ⟨hclosed, hpc, -⟩ | ⟨hpc, hwhy⟩ := h.place
  · rw [hpc]
    refine ⟨fun _ _ => ⟨r, rfl, hcache⟩, ?_, ?_, fun index r' he => (by cases he),
      fun he => (by cases he)⟩
    · cases r <;> simp [LifePC.left, Retry.left]
    · cases r <;> simp [LifePC.left, Retry.left]
  · rw [hpc]
    refine ⟨fun hopen => ?_, by simp [LifePC.left], by simp [LifePC.left],
      fun index r' he => (by cases he), fun he => (by cases he)⟩
    cases hclosed.symm.trans hopen
  · rw [hpc]
    refine ⟨fun hopen hne => ?_, Nat.zero_le 5, iff_of_true rfl rfl, fun index r' he => (by cases he),
      fun he => (by cases he)⟩
    obtain hclosed | hnone := hwhy
    · cases hclosed.symm.trans hopen
    · exact absurd hnone hne

/-- A client that has not panicked goes on; an answer that does not come is a failure. -/
theorem Life.Unopened.goes_on {s : Life X n} (h : s.Unopened) (hclosed : s.closed = true)
    (hpc : s.pc ≠ .panicked) :
    ∃ op : LifeOp n, op.isOwn = true ∧ (op.step P emb config C T s).isSome := by
  obtain ⟨r, hr, hun, -⟩ | ⟨-, hr, hcache⟩ | ⟨hr, -⟩ := h.place
  · cases r with
    | head i =>
      refine ⟨.retry .head, rfl, ?_⟩
      rw [LifeOp.step, hr]
      dsimp only
      rw [Life.retryUntilSnapshot, if_pos hclosed]
      rfl
    | sent k i =>
      refine ⟨.retry .arrive, rfl, ?_⟩
      rw [LifeOp.step, hr]
      rfl
    | waiting k ch i =>
      refine ⟨.retry .fail, rfl, ?_⟩
      rw [LifeOp.step, hr]
      rfl
    | answered body i =>
      have hbody : body = none := hun
      subst hbody
      refine ⟨.retry .receive, rfl, ?_⟩
      rw [LifeOp.step, hr]
      rfl
  · refine ⟨.poll, rfl, ?_⟩
    rw [LifeOp.step, hr, hcache]
    rfl
  · exact absurd hr hpc

/-- A client that is closed has five steps of its own left at most, however the run goes on. -/
theorem Life.Unopened.run_closed (hT : ∀ data, T.answer data = none) {s s' : Life X n}
    (h : s.Unopened) (hclosed : s.closed = true) {ops : List (LifeOp n)}
    (hrun : ops.foldlM (LifeOp.step P emb config C T) s = some s') :
    ops.countP (fun op => op.isOwn) + s'.pc.left ≤ s.pc.left ∧ (s'.pc.asks = true → s'.pc = s.pc) := by
  have hstart : s.Unopened ∧ s.closed = true := ⟨h, hclosed⟩
  refine ⟨?_, ?_⟩
  · have hcount := countP_add_work_le (P := fun op : LifeOp n => op.isOwn = true)
      (J := fun s : Life X n => s.Unopened ∧ s.closed = true) (w := ops)
      (fun t op t' ht hstep => ⟨⟨ht.1.step hT hstep, (LifeOp.step_same hstep).1 ht.2⟩,
        (ht.1.step_closed ht.2 hstep).1⟩) hstart hrun
    simpa only [Bool.decide_eq_true] using hcount
  · have hinv := foldlM_inv (J := fun t => (t.Unopened ∧ t.closed = true) ∧
        (t.pc.asks = true → t.pc = s.pc)) (fun t op t' ht hstep => ?_)
      ⟨hstart, fun _ => rfl⟩ hrun
    · exact hinv.2
    · refine ⟨⟨ht.1.1.step hT hstep, (LifeOp.step_same hstep).1 ht.1.2⟩, fun hasks => ?_⟩
      have hsame := (ht.1.1.step_closed ht.1.2 hstep).2 hasks
      rw [hsame] at hasks ⊢
      exact ht.2 hasks

/-- **No client can be opened.**  Whatever the servers apply and restore, and in any order of the
    steps: as long as nobody closes the client and it has a server to ask, `Open` has not come back
    and the client's copy is that of `NewClient`.  A client that is closed in `Open` PANICS: until it
    does it can go on, it has at most five steps of its own to get there, and the only request that
    it still has under way is one that it sent before.  It never polls, and never ends otherwise. -/
theorem open_never_succeeds (servers : Fin n → Store X) (metaServers : List (Fin n))
    {ops : List (LifeOp n)} {s : Life X n}
    (hrun : ops.foldlM (LifeOp.step P emb config C (transport P emb.toEmbeddedCodec))
      (Life.start servers metaServers) = some s) :
    (s.closed = false → metaServers ≠ [] →
      ∃ r, s.pc = .opening r ∧ s.cacheData = some Data.zero) ∧
    (s.closed = true →
      (s.pc ≠ .panicked → ∃ op : LifeOp n, op.isOwn = true ∧
        (op.step P emb config C (transport P emb.toEmbeddedCodec) s).isSome) ∧
      (s.pc.left = 0 ↔ s.pc = .panicked) ∧ s.pc.left ≤ 5 ∧
      ∀ (later : List (LifeOp n)) s',
        later.foldlM (LifeOp.step P emb config C (transport P emb.toEmbeddedCodec)) s = some s' →
        later.countP (fun op => op.isOwn) + s'.pc.left ≤ s.pc.left ∧
          (s'.pc.asks = true → s'.pc = s.pc)) ∧
    (∀ index r, s.pc ≠ .polling index r) ∧ s.pc ≠ .ended := by
  have hT := transport_answer P emb
  have hinv : s.Unopened ∧ s.metaServers = metaServers := by
    refine foldlM_inv (J := fun s => s.Unopened ∧ s.metaServers = metaServers)
      (fun t op t' h hstep => ?_) ⟨⟨.inl ⟨_, rfl, trivial, rfl⟩⟩, rfl⟩ hrun
    exact ⟨h.1.step hT hstep, (LifeOp.step_same hstep).2.trans h.2⟩
  obtain ⟨hun, hservers⟩ := hinv
  obtain ⟨hopening, hleft, hzero, hpolling, hended⟩ := hun.places
  refine ⟨fun hopen hne => hopening hopen (by rw [hservers]; exact hne), fun hclosed => ?_, hpolling,
    hended⟩
  exact ⟨fun hpc => hun.goes_on hclosed hpc, hzero, hleft,
    fun later s' hlater => hun.run_closed hT hclosed hlater⟩

end Life

/-- A new server is asked and answers with an error; the client is closed before it has read that,
    and panics. -/
def closedInOpen : List (LifeOp 1) :=
  [.retry .head, .retry .arrive, .retry .respond, .close, .retry .receive, .retry .head, .poll]

theorem open_never_succeeds_closed : ∃ s s' : Life Unit 1,
    (closedInOpen.take 4).foldlM (LifeOp.step clusterProto Embedded.idle ⟨false⟩ unmarshalCommand
      (transport clusterProto Embedded.idle.toEmbeddedCodec))
      (Life.start (fun _ => newStore ()) [0]) = some s ∧
    (closedInOpen.drop 4).foldlM (LifeOp.step clusterProto Embedded.idle ⟨false⟩ unmarshalCommand
      (transport clusterProto Embedded.idle.toEmbeddedCodec)) s = some s' ∧
    s.closed = true ∧ s.pc.left = 3 ∧ s'.pc = .panicked ∧
    (closedInOpen.drop 4).countP (fun op => op.isOwn) + s'.pc.left ≤ s.pc.left := by
  have hrun : ∃ s ∈ (closedInOpen.take 4).foldlM
      (LifeOp.step clusterProto Embedded.idle ⟨false⟩ unmarshalCommand
        (transport clusterProto Embedded.idle.toEmbeddedCodec))
      (Life.start (fun _ => newStore ()) [0]), s.closed = true ∧ s.pc.left = 3 ∧
        ∃ s' ∈ (closedInOpen.drop 4).foldlM
          (LifeOp.step clusterProto Embedded.idle ⟨false⟩ unmarshalCommand
            (transport clusterProto Embedded.idle.toEmbeddedCodec)) s, s'.pc = .panicked := by
    decide +kernel
  obtain ⟨s, hs, hclosed, hleft, s', hs', hpc⟩ := hrun
  exact ⟨s, s', hs, hs', hclosed, hleft, hpc,
    (((open_never_succeeds _ _ hs).2.1 hclosed).2.2.2 _ s' hs').1⟩

end InfluxCluster.Meta
