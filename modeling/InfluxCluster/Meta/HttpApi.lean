/-
  The HTTP interface of a meta server, and who asks it (`meta/handler.go`, `ServeHTTP` and
  `WrapHandler`; `meta/client.go`, `Ping`, `AcquireLease`, `JoinMetaServer`, `exec`).

  `ServeHTTP` chooses a handler by method and path and has `WrapHandler` put five others around it:
  compression, two headers, a log, and one that RECOVERS from a panic.  `WrapHandler` is given the
  handler and does not use it: what it wraps is a nil `http.Handler`.  So the innermost call panics,
  the outermost recovers, and net/http sends what a handler that wrote nothing leaves: 200 and an
  empty body.

  Nothing goes wrong visibly, which is why it matters who is on the other side.  The four kinds of
  callers take an empty success differently (`api_serves_nothing`): `Ping` believes it, and reports
  a cluster as healthy whatever its state; `AcquireLease`, `JoinMetaServer` and `exec` do not find
  their answer in it, each in its own way, and none of them ever comes back with a result.

  Who calls `ServeHTTP` is left open.  `Service.Open` makes the handler and has a listener, but the
  line that would serve it (`go s.serve()`) is commented out; so what is said of the callers is said
  of replies that `ServeHTTP` has made, by whoever serves it, and of requests that fail.

  Handlers are programs on the reply and the state of the server; a panic is their error.  What a
  handler would do is a parameter.
-/
import InfluxCluster.Meta.Exec

namespace InfluxCluster.Meta.Api

open InfluxCluster.Lib

/-! ## Handlers -/

/-- What is looked at of an `http.Request`; `gzip` says that `Accept-Encoding` contains it. -/
structure Request where
  method : String
  path : String
  gzip : Bool

/-- A line of the log: a request, or a panic. -/
inductive LogLine
  | request
  | panic (err : String)
  deriving DecidableEq

/-- The reply so far, the log, and the state of the server.  There is no status before something is
    written; the body is what a client reads, decompressed. -/
structure Conn (σ : Type) where
  status : Option Nat
  header : List (String × String)
  body : String
  log : List LogLine
  server : σ

/-- An `http.Handler`. -/
abbrev Handler (σ : Type) := Request → EStateM String (Conn σ) Unit

section Wrap

variable {σ : Type}

/-- A nil `http.Handler`: a call of its method panics. -/
def nilHandler : Handler σ := fun _ =>
  throw "runtime error: invalid memory address or nil pointer dereference"

/-- `w.Header().Set`. -/
def setHeader (key value : String) : EStateM String (Conn σ) Unit :=
  modify fun c => { c with header := (key, value) :: c.header.filter fun h => h.1 ≠ key }

/-- `gz.Close()`: the end of the compressed stream is written, whatever came before. -/
def closeGzip (c : Conn σ) : Conn σ := { c with status := some (c.status.getD 200) }

/-- `gzipFilter`; the `Close` is deferred, so it comes after a panic as well. -/
def gzipFilter (inner : Handler σ) : Handler σ := fun r =>
  if r.gzip then do
    setHeader "Content-Encoding" "gzip"
    fun c => match inner r c with
      | .ok a c' => .ok a (closeGzip c')
      | .error e c' => .error e (closeGzip c')
  else inner r

/-- `versionHeader`. -/
def versionHeader (version : String) (inner : Handler σ) : Handler σ := fun r => do
  modify fun c => { c with header := ("X-InfluxDB-Version", version) :: c.header }
  inner r

/-- `requestID`. -/
def requestID (uid : String) (inner : Handler σ) : Handler σ := fun r => do
  setHeader "Request-Id" uid
  inner r

/-- `logging`: the line is not written after a panic. -/
def logging (inner : Handler σ) : Handler σ := fun r => do
  inner r
  modify fun c => { c with log := c.log ++ [.request] }

/-- `recovery`. -/
def recovery (inner : Handler σ) : Handler σ := fun r c =>
  match inner r c with
  | .ok a c' => .ok a c'
  | .error e c' => .ok () { c' with log := c'.log ++ [.panic e] }

/-- What the handler of a server is made with: the version, `loggingEnabled`, the identifier that
    the next request gets, and what the handlers of this repository would do. -/
structure Wiring (σ : Type) where
  version : String
  loggingEnabled : Bool
  uid : String
  servePing : Handler σ
  serveLease : Handler σ
  serveSnapshot : Handler σ
  serveExec : Handler σ

/-- `WrapHandler`.  The assignment of `hf` is commented out. -/
def Wiring.wrapHandler (w : Wiring σ) (_hf : Handler σ) : Handler σ :=
  let handler : Handler σ := nilHandler
  let handler := gzipFilter handler
  let handler := versionHeader w.version handler
  let handler := requestID w.uid handler
  let handler := if w.loggingEnabled then logging handler else handler
  recovery handler

/-- `http.Error(w, "", status)`. -/
def httpError (status : Nat) : EStateM String (Conn σ) Unit :=
  modify fun c => { c with status := some status, body := c.body ++ "\n" }

/-- `ServeHTTP`. -/
def Wiring.serveHTTP (w : Wiring σ) : Handler σ := fun r =>
  if r.method = "GET" then
    if r.path = "/ping" then w.wrapHandler w.servePing r
    else if r.path = "/lease" then w.wrapHandler w.serveLease r
    else w.wrapHandler w.serveSnapshot r
  else if r.method = "POST" then w.wrapHandler w.serveExec r
  else httpError 400

/-- A new connection. -/
def Conn.start (server : σ) : Conn σ :=
  { status := none, header := [], body := "", log := [], server := server }

/-! ## What comes of a request -/

/-- What a client gets. -/
inductive Got
  | failed (text : String)
  | reply (statusCode : Nat) (location body : String)
  deriving DecidableEq

/-- What net/http makes of a handler: a reply without a status is a 200, and a handler that panics
    has its connection closed. -/
def got : EStateM.Result String (Conn σ) Unit → Got
  | .ok _ c => .reply (c.status.getD 200) ((c.header.lookup "Location").getD "") c.body
  | .error _ _ => .failed "EOF"

/-- The methods of the callers. -/
def Request.Routed (r : Request) : Prop := r.method = "GET" ∨ r.method = "POST"

/-- The wrapped nil, whatever is asked of it: nothing is written but headers, the panic is logged,
    and the server is as it was. -/
theorem wrapHandler_eq (w : Wiring σ) (hf : Handler σ) (r : Request) (server : σ) :
    ∃ c, w.wrapHandler hf r (Conn.start server) = .ok () c ∧ c.status.getD 200 = 200 ∧
      c.header.lookup "Location" = none ∧ c.body = "" ∧ c.server = server ∧
      ∃ err, c.log = [.panic err] := by
  obtain ⟨method, path, gzip⟩ := r
  obtain ⟨version, loggingEnabled, uid, _, _, _, _⟩ := w
  -- the cases are the client's compression and the server's log
  cases gzip <;> cases loggingEnabled <;>
    exact ⟨_, rfl, rfl, by simp [Conn.start, closeGzip], rfl, rfl, _, rfl⟩

/-- **`ServeHTTP` never gets to a handler.** -/
theorem serveHTTP_eq (w : Wiring σ) {r : Request} (hr : r.Routed) (server : σ) :
    got (w.serveHTTP r (Conn.start server)) = .reply 200 "" "" ∧
    ∃ c err, w.serveHTTP r (Conn.start server) = .ok () c ∧ c.server = server ∧
      c.log = [.panic err] := by
  have hwrapped : ∃ hf, w.serveHTTP r = w.wrapHandler hf r := by
    rw [Wiring.serveHTTP]
    rcases hr with hget | hpost
    · rw [if_pos hget]
      split
      · exact ⟨_, rfl⟩
      · split
        · exact ⟨_, rfl⟩
        · exact ⟨_, rfl⟩
    · rw [if_neg (by rw [hpost]; decide), if_pos hpost]
      exact ⟨_, rfl⟩
  obtain ⟨hf, heq⟩ := hwrapped
  obtain ⟨c, hc, hstatus, hlocation, hbody, hserver, err, hlog⟩ := wrapHandler_eq w hf r server
  refine ⟨?_, c, err, by rw [heq, hc], hserver, hlog⟩
  rw [heq, hc, got, hstatus, hlocation, hbody]
  rfl

/-- What somebody gets who asks where `ServeHTTP` is served, if the request comes to an end: it fails
    on its way, or a server of this kind has made the reply, in whatever state it was. -/
def Replied (a : Got) : Prop :=
  (∃ text, a = .failed text) ∨ ∃ (σ : Type) (w : Wiring σ) (r : Request) (server : σ),
    r.Routed ∧ a = got (w.serveHTTP r (Conn.start server))

theorem Replied.eq {a : Got} (h : Replied a) : (∃ text, a = .failed text) ∨ a = .reply 200 "" "" := by
  rcases h with hfailed | ⟨σ, w, r, server, hr, rfl⟩
  · exact .inl hfailed
  · exact .inr (serveHTTP_eq w hr server).1

end Wrap

/-! ## The callers -/

/-- `Ping`, after the request; `none` is nil. -/
def ping : Got → Option String
  | .failed text => some text
  | .reply statusCode _ body => if statusCode = 200 then none else some body

/-- The errors of `acquireLease`.  `AcquireLease` tries again after two, but no path returns
    `ErrService`. -/
inductive LeaseErr
  | serviceUnavailable
  | other (text : String)
  deriving DecidableEq

section Lease

variable {L : Type}

/-- `acquireLease`: the servers in turn.  Only a conflict goes on to the next one. -/
def acquireLease (unmarshal : String → Except String L) (get : String → Got) :
    List String → Except LeaseErr L
  | [] => .error (.other "unrecognized meta service error")
  | server :: servers =>
    match get server with
    | .failed text => .error (.other text)
    | .reply statusCode _ body =>
      if statusCode = 200 then
        match unmarshal body with
        | .ok l => .ok l
        | .error text => .error (.other text)
      else if statusCode = 409 then acquireLease unmarshal get servers
      else if statusCode = 503 then .error .serviceUnavailable
      else if statusCode = 400 then .error (.other ("meta service: " ++ body))
      else if statusCode = 500 then .error (.other "meta service internal error")
      else .error (.other "unrecognized meta service error")

/-- The loop of `AcquireLease` from the try `n` on, with so many left; the milliseconds that it has
    slept come with the result. -/
def acquireLeaseLoop (unmarshal : String → Except String L) (get : Nat → String → Got)
    (servers : List String) : Nat → Nat → Except LeaseErr L → Except LeaseErr L × Nat
  | _, 0, last => (last, 0)
  | n, left + 1, _ =>
    match acquireLease unmarshal (get n) servers with
    | .error .serviceUnavailable =>
      let (l, slept) :=
        acquireLeaseLoop unmarshal get servers (n + 1) left (.error .serviceUnavailable)
      (l, 10 ^ n + slept)
    | l => (l, 0)

/-- `AcquireLease`: ten tries. -/
def callAcquireLease (unmarshal : String → Except String L) (get : Nat → String → Got)
    (servers : List String) : Except LeaseErr L × Nat :=
  acquireLeaseLoop unmarshal get servers 1 10 (.error .serviceUnavailable)

/-- One try is enough to get nothing. -/
theorem acquireLease_replied {unmarshal : String → Except String L}
    (hempty : ∃ text, unmarshal "" = .error text) {get : String → Got}
    (hget : ∀ server, Replied (get server)) (servers : List String) :
    ∃ text, acquireLease unmarshal get servers = .error (.other text) := by
  cases servers with
  | nil => exact ⟨_, rfl⟩
  | cons server servers =>
    obtain ⟨text, hempty⟩ := hempty
    rcases (hget server).eq with ⟨text', hfailed⟩ | hreply
    · exact ⟨text', by rw [acquireLease, hfailed]⟩
    · refine ⟨text, ?_⟩
      rw [acquireLease, hreply]
      dsimp only
      rw [if_pos rfl, hempty]

end Lease

/-- Where `JoinMetaServer` is: in its loop, at its end, or at an index that the list of servers does
    not have. -/
inductive JoinPC (N : Type)
  | asking (currentServer : Nat) (redirectServer : String)
  | returned (node : Except String N)
  | panicked

section Join

variable {N : Type}

/-- The server after the last is the first. -/
def nextServer (servers : List String) (currentServer : Nat) : Nat :=
  if servers.length ≤ currentServer then 0 else currentServer

/-- The end of a round of `JoinMetaServer`. -/
def joinAfter (decode : String → Except String N) (currentServer : Nat) : Got → JoinPC N
  | .failed _ => .asking (currentServer + 1) ""
  | .reply statusCode location body =>
    if statusCode = 200 then .returned (decode body)
    else if statusCode = 307 then .asking currentServer location
    else .asking (currentServer + 1) ""

/-- One round of `JoinMetaServer`. -/
def joinRound (scheme : String) (decode : String → Except String N) (servers : List String) :
    JoinPC N → (String → Got) → JoinPC N
  | .asking currentServer redirectServer, ask =>
    if redirectServer ≠ "" then joinAfter decode currentServer (ask redirectServer)
    else
      match servers[nextServer servers currentServer]? with
      | none => .panicked
      | some server => joinAfter decode (nextServer servers currentServer)
          (ask (scheme ++ "://" ++ server ++ "/join"))
  | pc, _ => pc

/-- No node yet, and none to come. -/
def JoinPC.Empty (pc : JoinPC N) : Prop := ∀ node, pc ≠ .returned (.ok node)

theorem joinAfter_replied {decode : String → Except String N}
    (hempty : ∃ text, decode "" = .error text) (currentServer : Nat) {a : Got} (ha : Replied a) :
    (joinAfter decode currentServer a).Empty := by
  intro node h
  obtain ⟨text, hempty⟩ := hempty
  rcases ha.eq with ⟨text', rfl⟩ | rfl
  · cases h
  · rw [joinAfter, if_pos rfl, hempty] at h
    cases h

theorem joinRound_replied (scheme : String) {decode : String → Except String N}
    (hempty : ∃ text, decode "" = .error text) (servers : List String) {pc : JoinPC N}
    (hpc : pc.Empty) {ask : String → Got} (hask : ∀ url, Replied (ask url)) :
    (joinRound scheme decode servers pc ask).Empty := by
  cases pc with
  | asking currentServer redirectServer =>
    rw [joinRound]
    split
    · exact joinAfter_replied hempty _ (hask _)
    · split
      · intro node h
        cases h
      · exact joinAfter_replied hempty _ (hask _)
  | returned node => exact hpc
  | panicked => exact hpc

/-- Whatever is asked, and for however long. -/
theorem joinRounds_replied (scheme : String) {decode : String → Except String N}
    (hempty : ∃ text, decode "" = .error text) (servers : List String)
    (asks : List (String → Got)) (hasks : ∀ ask ∈ asks, ∀ url, Replied (ask url)) :
    (asks.foldl (joinRound scheme decode servers) (.asking 0 "")).Empty := by
  have hrounds : ∀ pc : JoinPC N, pc.Empty →
      (asks.foldl (joinRound scheme decode servers) pc).Empty := by
    induction asks with
    | nil => exact fun _ h => h
    | cons ask asks ih =>
      obtain ⟨hask, hrest⟩ := List.forall_mem_cons.mp hasks
      exact fun pc hpc => ih hrest _ (joinRound_replied scheme hempty servers hpc hask)
  refine hrounds _ ?_
  intro node h
  cases h

end Join

/-- The answer to a command, as `exec` looks at it; `unmarshal` is that of a `Response`. -/
def Got.answer (unmarshal : String → Except String Response) : Got → Answer
  | .failed text => .failed text
  | .reply statusCode location body => .response statusCode "" location (unmarshal body)

/-- **`ServeHTTP` serves nothing, and only `Ping` does not notice.**  Whatever the handlers would do
    and whatever state the server is in, `ServeHTTP` makes of a GET or POST an empty 200, and leaves
    the server as it was.  Of such replies, and of requests that fail: `Ping` returns nil exactly for
    a reply; `AcquireLease` returns an error at once, without a second try; `JoinMetaServer` never
    returns a node; and no request of `exec` succeeds.

    Used of the decoders is that nothing is not a value: a lease and a node are JSON objects, and a
    `Response` has a required field. -/
theorem api_serves_nothing {L N : Type} (unmarshalLease : String → Except String L)
    (decodeNode : String → Except String N) (unmarshalResponse : String → Except String Response)
    (hlease : ∃ text, unmarshalLease "" = .error text)
    (hnode : ∃ text, decodeNode "" = .error text)
    (hresponse : ∃ text, unmarshalResponse "" = .error text) :
    (∀ (σ : Type) (w : Wiring σ) (r : Request) (server : σ), r.Routed →
      got (w.serveHTTP r (Conn.start server)) = .reply 200 "" "" ∧
      ∃ c err, w.serveHTTP r (Conn.start server) = .ok () c ∧ c.server = server ∧
        c.log = [.panic err]) ∧
    (∀ a, Replied a → (ping a = none ↔ ∀ text, a ≠ .failed text)) ∧
    (∀ get servers, (∀ n server, Replied (get n server)) → ∃ text,
      callAcquireLease unmarshalLease get servers = (.error (.other text), 0)) ∧
    (∀ scheme servers (asks : List (String → Got)), (∀ ask ∈ asks, ∀ url, Replied (ask url)) →
      ∀ node, asks.foldl (joinRound scheme decodeNode servers) (.asking 0 "")
        ≠ .returned (.ok node)) ∧
    (∀ a, Replied a → ∃ text, Meta.exec (a.answer unmarshalResponse) = .error (.other text)) := by
  refine ⟨fun σ w r server hr => serveHTTP_eq w hr server, fun a ha => ?_,
    fun get servers hget => ?_, fun scheme servers asks hasks => ?_, fun a ha => ?_⟩
  · rcases ha.eq with ⟨text, rfl⟩ | rfl
    · exact iff_of_false (fun h => by cases h) fun h => h text rfl
    · exact iff_of_true rfl fun text h => by cases h
  · obtain ⟨text, htext⟩ := acquireLease_replied hlease (hget 1) servers
    exact ⟨text, by rw [callAcquireLease, acquireLeaseLoop, htext]⟩
  · exact joinRounds_replied scheme hnode servers asks hasks
  · obtain ⟨text', hempty⟩ := hresponse
    rcases ha.eq with ⟨text, rfl⟩ | rfl
    · exact ⟨text, rfl⟩
    · exact ⟨text', by rw [Got.answer, hempty]; rfl⟩

/-- A decoder that does not take nothing. -/
def nonEmptyText (s : String) : Except String String :=
  if s = "" then .error "unexpected end of JSON input" else .ok s

/-- A server each of whose handlers would fail. -/
def failing : Wiring Unit :=
  { version := "1", loggingEnabled := true, uid := "1", servePing := fun _ => httpError 500,
    serveLease := fun _ => httpError 500, serveSnapshot := fun _ => httpError 500,
    serveExec := fun _ => httpError 500 }

/-- `Ping` is happy with a reply of such a server; and who gets one after a request that failed does
    not join. -/
theorem api_serves_nothing_failing :
    ping (got (failing.serveHTTP ⟨"GET", "/ping", true⟩ (Conn.start ()))) = none ∧
    ∀ node, [fun _ => .failed "connection refused",
        fun _ => got (failing.serveHTTP ⟨"POST", "/join", true⟩ (Conn.start ()))].foldl
      (joinRound "http" nonEmptyText ["a:8091", "b:8091"]) (.asking 0 "")
        ≠ .returned (.ok node) := by
  obtain ⟨-, hping, -, hjoin, -⟩ := api_serves_nothing nonEmptyText nonEmptyText
    (fun _ => .error "required field not set") ⟨_, rfl⟩ ⟨_, rfl⟩ ⟨_, rfl⟩
  refine ⟨(hping _ (.inr ⟨Unit, _, _, _, .inl rfl, rfl⟩)).mpr ?_, hjoin _ _ _ ?_⟩
  · intro text h
    cases h
  · refine List.forall_mem_cons.mpr ⟨fun url => .inl ⟨_, rfl⟩, List.forall_mem_singleton.mpr ?_⟩
    exact fun url => .inr ⟨Unit, _, _, _, .inr rfl, rfl⟩

end InfluxCluster.Meta.Api
