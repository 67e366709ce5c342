/-
  How often a command of a client is executed (`meta/client.go`: `retryUntilExec`, `exec`;
  `meta/handler.go`: `serveExec`; `meta/store.go`, `meta/raft_state.go`: `apply`).

  `Exec` has the client's half of the exchange, for any answers.  Here is the other half: what
  `serveExec` ANSWERS to a command, and what has become of the command by then.  A command is in the
  log before it is answered, and the client asks again when it has no answer.  So an answer that is
  LOST after the command was executed means that it is executed again: nothing in the command tells
  that it is the same one.

  *  A command is executed at most once more often than answers are lost, at most eleven times, and
     at least once if the call comes back with nil to a client that nobody has closed
     (`executed_once_more_than_lost`).
  *  In a cluster that is STABLE a call asks at most two servers, the second of them the leader
     (`stable_cluster_two_requests`).
-/
import InfluxCluster.Meta.Exec

namespace InfluxCluster.Meta

open InfluxCluster.Lib

/-! ## `serveExec` -/

/-- What comes of `store.apply`: the index of the store after the command, `raft.ErrNotLeader`, or
    another error, of the state machine or of raft.  Raft may give one for a command that is in the
    log and will be EXECUTED all the same. -/
inductive Applied
  | ok (index : UInt64)
  | notLeader
  | failed (text : String) (executed : Bool)

/-- What `serveExec` finds: the handler is closed, the body cannot be read, or it is not a command;
    or the command is applied. -/
inductive Reception
  | closed
  | unreadable
  | invalid
  | applied (a : Applied)

/-- The command has been executed, or will be. -/
def Reception.executed : Reception → Bool
  | .applied (.ok _) => true
  | .applied (.failed _ executed) => executed
  | _ => false

/-- What `serveExec` knows of the cluster: `config.HTTPSEnabled`, and `store.leaderHTTP()`. -/
structure MetaServer where
  httpsEnabled : Bool
  leaderHTTP : String

/-- `httpError`. -/
def httpError (statusCode : Nat) (status : String) : Answer :=
  .response statusCode status "" (.error "")

/-- The URL under which a server takes commands. -/
def executeURL (https : Bool) (server : String) : String :=
  (if https then "https" else "http") ++ "://" ++ server ++ "/execute"

/-- `serveExec`.  The client looks at the error and the index of a response only, which is why it
    does not matter that `OK` is false in all of them. -/
def MetaServer.serveExec (server : MetaServer) : Reception → Answer
  | .closed => httpError 503 "503 Service Unavailable"
  | .unreadable => httpError 500 "500 Internal Server Error"
  | .invalid => httpError 400 "400 Bad Request"
  | .applied .notLeader =>
    -- no cluster leader: the client will have to try again later
    if server.leaderHTTP = "" then httpError 503 "503 Service Unavailable"
    else
      .response 307 "307 Temporary Redirect"
        ((if server.httpsEnabled then "https://" else "http://") ++ server.leaderHTTP ++ "/execute")
        (.error "")
  | .applied (.failed text _) => .response 200 "200 OK" "" (.ok { error := text, index := 0 })
  | .applied (.ok index) => .response 200 "200 OK" "" (.ok { error := "", index := index })

/-- What becomes of a request: it does not get to a server; it is answered; or its answer is lost. -/
inductive Exchange
  | unreachable (text : String)
  | answered (server : MetaServer) (r : Reception)
  | lost (server : MetaServer) (r : Reception) (text : String)

/-- What the client has of it. -/
def Exchange.answer : Exchange → Answer
  | .unreachable text | .lost _ _ text => .failed text
  | .answered server r => server.serveExec r

/-- The command has been executed. -/
def Exchange.executed : Exchange → Bool
  | .unreachable _ => false
  | .answered _ r | .lost _ r _ => r.executed

/-- The command has been executed, and the answer is lost. -/
def Exchange.lostExecution : Exchange → Bool
  | .lost _ r _ => r.executed
  | _ => false

/-- No error comes with an empty text, which the client takes for success. -/
def Exchange.Speaks : Exchange → Prop
  | .answered _ (.applied (.failed text _)) => text ≠ ""
  | _ => True

/-! ## A call, with what is done for it -/

/-- A call of `retryUntilExec`, with the number of its requests, how often the command has been
    executed, and how often that was not answered. -/
structure Delivery (X : Type) where
  call : Exec X
  requests : Nat
  executed : Nat
  lost : Nat

/-- A request is made and answered, or the call takes one of its other steps. -/
inductive DeliveryOp (X : Type)
  | request (x : Exchange)
  | other (op : ExecOp X)

section Delivery

variable {X : Type}

/-- One step; `none` if the call is not there. -/
def DeliveryOp.step (s : Delivery X) : DeliveryOp X → Option (Delivery X)
  | .request x =>
    (ExecOp.step s.call (.answer x.answer)).map fun call =>
      { call := call
        requests := s.requests + 1
        executed := s.executed + x.executed.toNat
        lost := s.lost + x.lostExecution.toNat }
  | .other (.answer _) => none
  | .other op => (ExecOp.step s.call op).map fun call => { s with call := call }

/-- The call begins. -/
def Delivery.start (client : Client X) (metaServers : List String) (tls : Bool) : Delivery X :=
  { call := retryUntilExec client false metaServers tls, requests := 0, executed := 0, lost := 0 }

/-- The number of attempts that a call has behind it, while it goes on. -/
def ExecPC.tries : ExecPC → Option Nat
  | .loop tries _ _ | .choose tries _ _ | .exec _ tries _ => some tries
  | .waiting _ | .returned _ _ | .panicked => none

/-- **The books of a call.**  While it goes on, every execution is one whose answer was lost; after
    it has been told of success there is one more. -/
structure Delivery.Booked (s : Delivery X) : Prop where
  told : s.call.Told
  going : ∀ tries, s.call.pc.tries = some tries →
    s.requests = tries ∧ tries ≤ maxRetries ∧ s.executed = s.lost
  once : s.executed ≤ s.lost + 1
  requested : s.executed ≤ s.requests
  bounded : s.requests ≤ maxRetries + 1
  success : s.call.success.isSome → s.executed = s.lost + 1
  honest : s.call.closed = false → s.call.Honest

theorem Delivery.booked_start (client : Client X) (metaServers : List String) (tls : Bool) :
    (Delivery.start client metaServers tls).Booked where
  told := rfl
  going := fun tries htries => by
    cases htries
    exact ⟨rfl, Nat.zero_le _, rfl⟩
  once := Nat.zero_le _
  requested := Nat.le_refl _
  bounded := Nat.zero_le _
  success := fun h => by cases h
  honest := fun _ cacheIndex hpc => by cases hpc

/-! ## One exchange -/

/-- A success that the client is told of is an execution. -/
theorem Exchange.executed_of_ok {x : Exchange} (hx : x.Speaks) {index : UInt64}
    (h : exec x.answer = .ok index) : x.executed = true ∧ x.lostExecution = false := by
  cases x with
  | unreachable text => cases h
  | lost server r text => cases h
  | answered server r =>
    refine ⟨?_, rfl⟩
    cases r with
    | closed => cases h
    | unreadable => cases h
    | invalid => cases h
    | applied a =>
      cases a with
      | ok index => rfl
      | notLeader =>
        rw [Exchange.answer, MetaServer.serveExec] at h
        split at h <;> cases h
      | failed text executed =>
        have hx : text ≠ "" := hx
        rw [Exchange.answer, MetaServer.serveExec, exec] at h
        dsimp only at h
        rw [if_neg (by decide), if_neg (by decide), if_pos hx] at h
        cases h

/-- Of an execution that ends with an error the client is told, or its answer is lost. -/
theorem Exchange.executed_of_error {x : Exchange} {err : ExecErr} (h : exec x.answer = .error err) :
    x.executed = x.lostExecution ∨ ∃ msg, err = .command msg ∧ x.lostExecution = false := by
  cases x with
  | unreachable text => exact .inl rfl
  | lost server r text => exact .inl rfl
  | answered server r =>
    cases r with
    | closed => exact .inl rfl
    | unreadable => exact .inl rfl
    | invalid => exact .inl rfl
    | applied a =>
      cases a with
      | ok index => cases h
      | notLeader => exact .inl rfl
      | failed text executed =>
        refine .inr ⟨text, ?_, rfl⟩
        rw [Exchange.answer, MetaServer.serveExec, exec] at h
        dsimp only at h
        rw [if_neg (by decide), if_neg (by decide)] at h
        split at h <;> cases h
        rfl

/-- A request is made from a call that is at it. -/
theorem DeliveryOp.step_request {s s' : Delivery X} {x : Exchange}
    (h : DeliveryOp.step s (.request x) = some s') :
    ∃ url tries currentServer, s.call.pc = .exec url tries currentServer ∧
      s' = { call := s.call.answered tries currentServer x.answer
             requests := s.requests + 1
             executed := s.executed + x.executed.toNat
             lost := s.lost + x.lostExecution.toNat } := by
  obtain ⟨call, hcall, rfl⟩ := Option.map_eq_some_iff.mp h
  rw [ExecOp.step] at hcall
  split at hcall
  · next url tries currentServer hpc =>
    cases hcall
    exact ⟨url, tries, currentServer, hpc, rfl⟩
  · cases hcall

theorem DeliveryOp.step_other {s s' : Delivery X} {op : ExecOp X}
    (h : DeliveryOp.step s (.other op) = some s') :
    (∀ a, op ≠ .answer a) ∧ ∃ call, ExecOp.step s.call op = some call ∧
      s' = { s with call := call } := by
  unfold DeliveryOp.step at h
  split at h
  · next heq => cases heq
  · cases h
  · next hop heq =>
    cases heq
    obtain ⟨call, hcall, rfl⟩ := Option.map_eq_some_iff.mp h
    exact ⟨fun a ha => hop a ha, call, hcall, rfl⟩

/-- What an answer makes of a call: it waits for the index of a success; it gives up; or it goes on
    to the next attempt, but not after an error of the command. -/
theorem Exec.answered_cases (s : Exec X) (tries currentServer : Nat) (a : Answer) :
    (∃ index, exec a = .ok index ∧ s.answered tries currentServer a
      = { s with pc := .waiting (.check index), success := some index }) ∨
    (∃ err, exec a = .error err ∧ s.answered tries currentServer a = s.return (some err)) ∨
    (∃ err host, exec a = .error err ∧ tries + 1 ≤ maxRetries ∧ (∀ msg, err ≠ .command msg) ∧
      s.answered tries currentServer a
        = { s with pc := .loop (tries + 1) (currentServer + 1) host }) := by
  rw [Exec.answered]
  rcases hexec : exec a with err | index
  · dsimp only
    split_ifs with hmany
    · exact .inr (.inl ⟨err, rfl, rfl⟩)
    · have hfew : tries + 1 ≤ maxRetries := Nat.le_of_not_lt hmany
      cases err with
      | redirect host =>
        exact .inr (.inr ⟨_, host, rfl, hfew, fun msg => ExecErr.noConfusion, rfl⟩)
      | command msg => exact .inr (.inl ⟨_, rfl, rfl⟩)
      | other text => exact .inr (.inr ⟨_, "", rfl, hfew, fun msg => ExecErr.noConfusion, rfl⟩)
  · exact .inl ⟨index, rfl, rfl⟩

/-! ## All of a call -/

/-- No step opens a client that has been closed. -/
theorem ExecOp.Does.closed {s s' : Exec X} {op : ExecOp X} (h : ExecOp.Does s op s')
    (hopen : s'.closed = false) : s.closed = false := by
  cases h with
  | close => cases hopen
  | _ => exact hopen

/-- A call keeps to what it is told, and returns nil for a success only. -/
theorem Delivery.Booked.call_step {s : Delivery X} (h : s.Booked) {op : ExecOp X} {call : Exec X}
    (hstep : ExecOp.step s.call op = some call) :
    call.Told ∧ (call.closed = false → call.Honest) := by
  obtain ⟨htold, hhonest⟩ := ExecOp.step_told h.told hstep
  refine ⟨htold, fun hopen => ?_⟩
  have hopen' : s.call.closed = false := (ExecOp.does_of_step hstep).closed hopen
  refine (hhonest (h.honest hopen')).mpr ?_
  cases op with
  | head => exact hopen'
  | choose | answer a | wait | close | setMetaServers a | install data => trivial

/-- A request is executed, forwarded or lost. -/
theorem Delivery.Booked.request {s s' : Delivery X} (h : s.Booked) {x : Exchange} (hx : x.Speaks)
    (hstep : DeliveryOp.step s (.request x) = some s') : s'.Booked := by
  obtain ⟨call, hcall, -⟩ := Option.map_eq_some_iff.mp hstep
  obtain ⟨htold, hhonest⟩ := h.call_step hcall
  obtain ⟨url, tries, currentServer, hpc, rfl⟩ := DeliveryOp.step_request hstep
  rw [ExecOp.step, hpc] at hcall
  cases hcall
  obtain ⟨hrequests, htries, hexecuted⟩ := h.going tries (by rw [hpc]; rfl)
  have hnone : s.call.success = none := by
    have htold := h.told
    rw [Exec.Told, hpc] at htold
    exact htold
  have hone : x.executed.toNat ≤ 1 := Bool.toNat_le _
  have hrequested := h.requested
  -- what is left to be said depends on the answer
  refine ⟨htold, ?_, ?_, ?_, ?_, ?_, hhonest⟩
  · intro tries' htries'
    rcases s.call.answered_cases tries currentServer x.answer with
      ⟨index, -, hans⟩ | ⟨err, -, hans⟩ | ⟨err, host, herr, hfew, hnot, hans⟩
    · rw [hans] at htries'
      cases htries'
    · rw [hans] at htries'
      cases htries'
    · rw [hans] at htries'
      cases htries'
      rcases Exchange.executed_of_error herr with hsame | ⟨msg, hmsg, -⟩
      · rw [hsame, hexecuted]
        exact ⟨by rw [hrequests], hfew, rfl⟩
      · exact absurd hmsg (hnot msg)
  · show s.executed + _ ≤ s.lost + _ + 1
    omega
  · show s.executed + _ ≤ s.requests + 1
    omega
  · show s.requests + 1 ≤ maxRetries + 1
    omega
  · intro hsome
    rcases s.call.answered_cases tries currentServer x.answer with
      ⟨index, hok, -⟩ | ⟨err, -, hans⟩ | ⟨err, host, -, -, -, hans⟩
    · obtain ⟨hexec, hnotLost⟩ := Exchange.executed_of_ok hx hok
      rw [hexec, hnotLost, hexecuted]
      rfl
    · rw [hans] at hsome
      have hsome : s.call.success.isSome := hsome
      rw [hnone] at hsome
      cases hsome
    · rw [hans] at hsome
      have hsome : s.call.success.isSome := hsome
      rw [hnone] at hsome
      cases hsome

/-- The steps that ask nobody leave the books as they are. -/
theorem ExecOp.Does.tries {s s' : Exec X} {op : ExecOp X} (h : ExecOp.Does s op s')
    (hop : ∀ a, op ≠ .answer a) :
    s'.success = s.success ∧ ∀ tries, s'.pc.tries = some tries → s.pc.tries = some tries := by
  cases h with
  | foundClosed hpc hclosed => exact ⟨rfl, fun tries htries => by cases htries⟩
  | foundOpen hpc hopen =>
    refine ⟨rfl, fun tries htries => ?_⟩
    rw [hpc]
    exact htries
  | chosen hpc =>
    refine ⟨rfl, fun tries htries => ?_⟩
    rw [hpc]
    exact htries
  | noServer hpc => exact ⟨rfl, fun tries htries => by cases htries⟩
  | succeeded hpc hexec => exact absurd rfl (hop _)
  | gaveUp hpc hexec => exact absurd rfl (hop _)
  | retried hpc hexec => exact absurd rfl (hop _)
  | waited hpc hw => exact ⟨rfl, fun tries htries => by cases htries⟩
  | waitsOn hpc hw hne => exact ⟨rfl, fun tries htries => by cases htries⟩
  | close | setMetaServers | install => exact ⟨rfl, fun tries htries => htries⟩

/-- The exchange of a step, if it is one, has texts for its errors. -/
def DeliveryOp.Speaks : DeliveryOp X → Prop
  | .request x => x.Speaks
  | .other _ => True

/-- **One step**, whatever it is. -/
theorem Delivery.Booked.step {s s' : Delivery X} (h : s.Booked) {op : DeliveryOp X}
    (hop : op.Speaks) (hstep : op.step s = some s') : s'.Booked := by
  cases op with
  | request x => exact h.request hop hstep
  | other op =>
    obtain ⟨hop, call, hcall, rfl⟩ := DeliveryOp.step_other hstep
    obtain ⟨htold, hhonest⟩ := h.call_step hcall
    obtain ⟨hsuccess, htries⟩ := (ExecOp.does_of_step hcall).tries hop
    refine ⟨htold, fun tries ht => h.going tries (htries tries ht), h.once, h.requested, h.bounded,
      fun hsome => h.success ?_, hhonest⟩
    rw [← hsuccess]
    exact hsome

/-- **A command is executed at most once more often than answers are lost**, and at most eleven
    times; exactly once more, if the call comes back with nil and nobody has closed the client. -/
theorem executed_once_more_than_lost (client : Client X) (metaServers : List String) (tls : Bool)
    {ops : List (DeliveryOp X)} {s : Delivery X} (hspeaks : ∀ op ∈ ops, op.Speaks)
    (hrun : ops.foldlM DeliveryOp.step (Delivery.start client metaServers tls) = some s) :
    s.executed ≤ s.lost + 1 ∧ s.executed ≤ maxRetries + 1 ∧
      ∀ cacheIndex, s.call.closed = false → s.call.pc = .returned none cacheIndex →
        s.executed = s.lost + 1 := by
  have hbooked : s.Booked :=
    foldlM_inv_mem (fun _ _ _ h hop hstep => h.step hop hstep) hspeaks
      (Delivery.booked_start client metaServers tls) hrun
  refine ⟨hbooked.once, Nat.le_trans hbooked.requested hbooked.bounded, ?_⟩
  intro cacheIndex hopen hpc
  obtain ⟨index, hindex, -⟩ := hbooked.honest hopen cacheIndex hpc
  exact hbooked.success (Option.isSome_iff_exists.mpr ⟨index, hindex⟩)

/-! ## A stable cluster -/

/-- **The cluster is stable**: every request is answered, the leader executes the command, and the
    others know the leader and speak the client's protocol. -/
def Exchange.Stable (tls : Bool) (leader url : String) : Exchange → Prop
  | .answered _ (.applied (.ok _)) => url = executeURL tls leader
  | .answered server (.applied .notLeader) =>
    url ≠ executeURL tls leader ∧ server.httpsEnabled = tls ∧ server.leaderHTTP = leader
  | _ => False

instance (tls : Bool) (leader url : String) (x : Exchange) : Decidable (x.Stable tls leader url) := by
  unfold Exchange.Stable
  split <;> infer_instance

/-- The request of a step, if it is one, is made in a stable cluster. -/
def DeliveryOp.Stable (tls : Bool) (leader : String) (s : Delivery X) : DeliveryOp X → Prop
  | .other _ => True
  | .request x =>
    match s.call.pc with
    | .exec url _ _ => x.Stable tls leader url
    | _ => False

instance (tls : Bool) (leader : String) (s : Delivery X) (op : DeliveryOp X) :
    Decidable (op.Stable tls leader s) := by
  unfold DeliveryOp.Stable
  split
  · infer_instance
  · split <;> infer_instance

/-- Where the call is: at its first attempt, at its second one with the leader's URL, or past the
    execution of its command. -/
def Delivery.OnTheWay (leaderURL : String) (s : Delivery X) : Prop :=
  match s.call.pc with
  | .loop tries _ redirectServer | .choose tries _ redirectServer =>
    s.requests = tries ∧ s.executed = 0 ∧
      ((tries = 0 ∧ redirectServer = "") ∨ (tries = 1 ∧ redirectServer = leaderURL))
  | .exec url tries _ => s.requests = tries ∧ s.executed = 0 ∧
      (tries = 0 ∨ (tries = 1 ∧ url = leaderURL))
  | .waiting _ => s.requests ≤ 2 ∧ s.executed = 1
  | .returned err _ => s.requests ≤ 1 + s.executed ∧ s.executed ≤ 1 ∧ err = none ∧
      (s.call.closed = false → s.executed = 1)
  | .panicked => s.requests = 0 ∧ s.executed = 0

theorem executeURL_ne_empty (https : Bool) (server : String) : executeURL https server ≠ "" := by
  intro h
  have hlength := congrArg String.length h
  cases https <;> simp [executeURL] at hlength

/-- Where a follower sends the client is where the client would have gone itself. -/
theorem exec_notLeader {server : MetaServer} (hleader : server.leaderHTTP ≠ "") :
    exec (server.serveExec (.applied .notLeader))
      = .error (.redirect (executeURL server.httpsEnabled server.leaderHTTP)) := by
  rw [MetaServer.serveExec, if_neg hleader, exec, if_pos rfl, executeURL]
  cases server.httpsEnabled <;> rfl

theorem Delivery.OnTheWay.request {tls : Bool} {leader : String} (hleader : leader ≠ "")
    {s s' : Delivery X} (h : s.OnTheWay (executeURL tls leader)) {x : Exchange}
    (hstable : DeliveryOp.Stable tls leader s (.request x))
    (hstep : DeliveryOp.step s (.request x) = some s') : s'.OnTheWay (executeURL tls leader) := by
  obtain ⟨url, tries, currentServer, hpc, rfl⟩ := DeliveryOp.step_request hstep
  rw [DeliveryOp.Stable, hpc] at hstable
  rw [Delivery.OnTheWay, hpc] at h
  obtain ⟨hrequests, hexecuted, hwhere⟩ := h
  unfold Exchange.Stable at hstable
  dsimp only at hstable
  split at hstable
  · -- the leader executes the command
    show s.requests + 1 ≤ 2 ∧ s.executed + 1 = 1
    omega
  · -- another server knows the leader, and nobody has been asked before
    obtain ⟨hurl, rfl, rfl⟩ := hstable
    have hfirst : tries = 0 := by
      rcases hwhere with hfirst | ⟨-, hurl'⟩
      · exact hfirst
      · exact absurd hurl' hurl
    subst hfirst
    rw [Exec.answered, Exchange.answer, exec_notLeader hleader]
    exact ⟨by rw [hrequests], hexecuted, .inr ⟨rfl, rfl⟩⟩
  · exact hstable.elim

/-- The server that is chosen is the leader, if the call was sent there. -/
theorem Exec.chooseServer_redirect (s : Exec X) (tries currentServer : Nat) {url : String}
    (hurl : url ≠ "") :
    s.chooseServer tries currentServer url = .exec url tries currentServer := if_pos hurl

/-- One step, with the leader where it is. -/
theorem Delivery.OnTheWay.step {tls : Bool} {leader : String} (hleader : leader ≠ "")
    {s s' : Delivery X} (h : s.OnTheWay (executeURL tls leader)) {op : DeliveryOp X}
    (hstable : op.Stable tls leader s) (hstep : op.step s = some s') :
    s'.OnTheWay (executeURL tls leader) := by
  cases op with
  | request x => exact h.request hleader hstable hstep
  | other op =>
    obtain ⟨hop, call, hcall, rfl⟩ := DeliveryOp.step_other hstep
    cases op with
    | answer a => exact absurd rfl (hop a)
    | choose =>
      rw [ExecOp.step] at hcall
      split at hcall
      · next tries currentServer redirectServer hpc =>
        cases hcall
        rw [Delivery.OnTheWay, hpc] at h
        obtain ⟨hrequests, hexecuted, ⟨rfl, rfl⟩ | ⟨rfl, rfl⟩⟩ := h
        · rcases s.call.chooseServer_cases 0 currentServer "" with ⟨url, next, hnext⟩ | hpanic
          · rw [hnext]
            exact ⟨hrequests, hexecuted, .inl rfl⟩
          · rw [hpanic]
            exact ⟨hrequests, hexecuted⟩
        · rw [s.call.chooseServer_redirect 1 currentServer (executeURL_ne_empty tls leader)]
          exact ⟨hrequests, hexecuted, .inr ⟨rfl, rfl⟩⟩
      · cases hcall
    | head =>
      cases ExecOp.does_of_step hcall with
      | foundClosed hpc hclosed =>
        rw [Delivery.OnTheWay, hpc] at h
        obtain ⟨hrequests, hexecuted, hwhere⟩ := h
        have hone : s.requests ≤ 1 + s.executed := by omega
        refine ⟨hone, hexecuted ▸ Nat.zero_le _, rfl, fun hopen => ?_⟩
        cases hclosed.symm.trans hopen
      | foundOpen hpc hopen =>
        rw [Delivery.OnTheWay, hpc] at h
        exact h
    | wait =>
      cases ExecOp.does_of_step hcall with
      | waited hpc hw =>
        rw [Delivery.OnTheWay, hpc] at h
        obtain ⟨hrequests, hexecuted⟩ := h
        have htwo : s.requests ≤ 1 + s.executed := by omega
        exact ⟨htwo, Nat.le_of_eq hexecuted, rfl, fun _ => hexecuted⟩
      | waitsOn hpc hw hne =>
        rw [Delivery.OnTheWay, hpc] at h
        exact h
    | close =>
      cases hcall
      unfold Delivery.OnTheWay at h ⊢
      dsimp only at h ⊢
      split at h
      all_goals first | exact h | exact ⟨h.1, h.2.1, h.2.2.1, fun hopen => Bool.noConfusion hopen⟩
    | setMetaServers a =>
      cases hcall
      exact h
    | install data =>
      cases hcall
      exact h

/-- **In a stable cluster a call asks at most two servers**, executes its command at most once, and
    does not fail; a call that has come back to a client that nobody has closed has executed it. -/
theorem stable_cluster_two_requests (client : Client X) (metaServers : List String) (tls : Bool)
    (leader : String) (hleader : leader ≠ "") {ops : List (DeliveryOp X)} {s : Delivery X}
    (hstable : Along DeliveryOp.step (fun s op => op.Stable tls leader s)
      (Delivery.start client metaServers tls) ops)
    (hrun : ops.foldlM DeliveryOp.step (Delivery.start client metaServers tls) = some s) :
    s.requests ≤ 2 ∧ s.executed ≤ 1 ∧ (s.requests = 2 → s.executed = 1) ∧
      ∀ err cacheIndex, s.call.pc = .returned err cacheIndex →
        err = none ∧ (s.call.closed = false → s.executed = 1) := by
  have hway : s.OnTheWay (executeURL tls leader) :=
    hstable.inv (fun _ _ _ h hop hstep => h.step hleader hop hstep)
      ⟨rfl, rfl, .inl ⟨rfl, rfl⟩⟩ hrun
  rw [Delivery.OnTheWay] at hway
  cases hpc : s.call.pc with
  | loop tries currentServer redirectServer | choose tries currentServer redirectServer =>
    rw [hpc] at hway
    obtain ⟨hrequests, hexecuted, hwhere⟩ := hway
    exact ⟨by omega, by omega, by omega, fun err cacheIndex h => by cases h⟩
  | exec url tries currentServer =>
    rw [hpc] at hway
    obtain ⟨hrequests, hexecuted, hwhere⟩ := hway
    exact ⟨by omega, by omega, by omega, fun err cacheIndex h => by cases h⟩
  | waiting w =>
    rw [hpc] at hway
    obtain ⟨hrequests, hexecuted⟩ := hway
    exact ⟨hrequests, Nat.le_of_eq hexecuted, fun _ => hexecuted, fun err cacheIndex h => by cases h⟩
  | panicked =>
    rw [hpc] at hway
    obtain ⟨hrequests, hexecuted⟩ := hway
    exact ⟨by omega, by omega, by omega, fun err cacheIndex h => by cases h⟩
  | returned err cacheIndex =>
    rw [hpc] at hway
    obtain ⟨hrequests, hexecuted, herr, hopen⟩ := hway
    refine ⟨by omega, hexecuted, by omega, fun err' cacheIndex' h => ?_⟩
    cases h
    exact ⟨herr, hopen⟩

end Delivery

/-- The leader executes the command and its answer is lost; it is asked again. -/
def answerLost : List (DeliveryOp Unit) :=
  [.other .head, .other .choose,
    .request (.lost { httpsEnabled := false, leaderHTTP := "meta1:8091" } (.applied (.ok 0)) "EOF"),
    .other .head, .other .choose,
    .request (.answered { httpsEnabled := false, leaderHTTP := "meta1:8091" } (.applied (.ok 0))),
    .other .wait]

/-- **A command is executed twice**, and the client is told of success once. -/
theorem executed_twice_answerLost :
    ∃ s ∈ answerLost.foldlM DeliveryOp.step (Delivery.start newClient ["meta1:8091"] false),
      s.executed = 2 ∧ s.lost = 1 ∧ s.executed = s.lost + 1 := by
  have hrun : ∃ s ∈ answerLost.foldlM DeliveryOp.step
      (Delivery.start newClient ["meta1:8091"] false),
      s.executed = 2 ∧ s.lost = 1 ∧ s.call.closed = false ∧ s.call.pc = .returned none 0 := by
    decide +kernel
  obtain ⟨s, hs, htwo, hone, hopen, hpc⟩ := hrun
  refine ⟨s, hs, htwo, hone, ?_⟩
  exact (executed_once_more_than_lost newClient ["meta1:8091"] false
    (by simp [answerLost, DeliveryOp.Speaks, Exchange.Speaks]) hs).2.2 0 hopen hpc

/-- A follower is asked first. -/
def askFollower : List (DeliveryOp Unit) :=
  [.other .head, .other .choose,
    .request (.answered { httpsEnabled := false, leaderHTTP := "meta1:8091" } (.applied .notLeader)),
    .other .head, .other .choose,
    .request (.answered { httpsEnabled := false, leaderHTTP := "meta1:8091" } (.applied (.ok 0)))]

theorem two_requests_askFollower :
    ∃ s ∈ askFollower.foldlM DeliveryOp.step
        (Delivery.start newClient ["meta0:8091", "meta1:8091"] false),
      s.requests = 2 ∧ s.executed = 1 := by
  have hrun : ∃ s ∈ askFollower.foldlM DeliveryOp.step
      (Delivery.start newClient ["meta0:8091", "meta1:8091"] false), s.requests = 2 := by
    decide +kernel
  obtain ⟨s, hs, htwo⟩ := hrun
  refine ⟨s, hs, htwo, ?_⟩
  refine (stable_cluster_two_requests newClient ["meta0:8091", "meta1:8091"] false
    "meta1:8091" (by decide) ?_ hs).2.2.1 htwo
  decide +kernel

end InfluxCluster.Meta
