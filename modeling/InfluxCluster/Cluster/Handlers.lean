/-
  The handlers of the cluster service for writes, iterators and field dimensions
  (`cluster/service.go`: `processWriteShardRequest`, `processCreateIteratorRequest`,
  `processFieldDimensionsRequest`).

  A request is decoded in LAYERS: the frame, the message, and in it the points, the options or the
  sources.  Each layer has its own way to fail.

  * `WriteShardRequest.Points` panics for bytes that are not a point;
  * `processCreateIteratorRequest` closes its iterator on every error, and on every error there is
    NONE yet: a method of a nil interface panics;
  * both loops over the shards of a request return nil at the first one that the store does not
    have, with nothing of what they have collected.

  A panic is that of a goroutine that nobody recovers, and ends the data node.  So the handlers
  survive a request exactly if it is `Benign` (`handlers_survive_iff`), and the field dimensions are
  those of the shards that are there exactly if none is missing, or those have none
  (`fieldDimensions_union_iff`).

  The store is a state machine of its own and may answer whatever it likes.  Protobuf, the codecs
  and the iterators of the embedded packages are parameters.  A reply is the value that is given to
  `EncodeTLV`; what becomes of it on the wire is `Rpc.Messages` and `Tlv.Codec`.  Statistics and the
  log are left out.
-/
import InfluxCluster.Rpc.Messages
import InfluxCluster.Tlv.Hostile

namespace InfluxCluster.Cluster

open InfluxCluster.Lib InfluxCluster.Tlv InfluxCluster.Rpc

/-! ## What the handlers use -/

/-- An error of the store. -/
inductive StoreErr
  /-- `tsdb.ErrShardNotFound`. -/
  | shardNotFound
  | other (text : String)
  deriving DecidableEq

def StoreErr.text : StoreErr → String
  | shardNotFound => "shard not found"
  | other text => text

/-- The methods of the store that the handlers call. -/
structure TSDBStore (P IC σ : Type) where
  writeToShard : UInt64 → List P → σ → Option StoreErr × σ
  createShard : String → String → UInt64 → σ → Option StoreErr × σ
  /-- `none` is nil: there is no such shard. -/
  shardIteratorCreator : UInt64 → σ → Option IC × σ

/-- `influxql.IteratorCreators`, and the encoder of iterators. -/
structure Iterators (IC O S Itr : Type) where
  createIterator : List IC → O → Except String (Option Itr)
  fieldDimensions : List IC → S → Except String (Finset String × Finset String)

/-- All that a handler uses. -/
structure Service (P IC O S Itr σ : Type) where
  wire : Wire
  points : BinaryCodec P
  options : BinaryCodec O
  sources : BinaryCodec S
  /-- The zero values, in a request that is still to be read. -/
  noOptions : O
  noSources : S
  store : TSDBStore P IC σ
  iterators : Iterators IC O S Itr

/-- `WriteShardResponse`. -/
structure WriteShardResponse where
  code : Int
  message : Option String
  deriving DecidableEq

/-- What a handler writes to the connection. -/
inductive Reply (Itr : Type)
  | writeShard (r : WriteShardResponse)
  | createIterator (r : CreateIteratorResponse)
  | fieldDimensions (r : FieldDimensionsResponse)
  /-- The iterator, streamed by `EncodeIterator`. -/
  | iterator (itr : Itr)
  deriving DecidableEq

/-- The connection and the store. -/
structure Served (Itr σ : Type) where
  input : Bytes
  sent : List (Reply Itr)
  store : σ

/-- Why a handler panics. -/
inductive Panic
  /-- `make` with a negative length. -/
  | makeslice
  /-- "failed to parse point". -/
  | parsePoint
  /-- A method of a nil iterator. -/
  | nilIterator
  deriving DecidableEq

abbrev Handler (Itr σ : Type) := EStateM Panic (Served Itr σ)

section Handlers

variable {P IC O S Itr σ V : Type}

/-- Read from the connection. -/
def receive (x : Reader V) : Handler Itr σ (Except String V) := fun s =>
  match x s.input with
  | .ok v rest => .ok (.ok v) { s with input := rest }
  | .error (.err text) rest => .ok (.error text) { s with input := rest }
  | .error .panicked rest => .error .makeslice { s with input := rest }

/-- Write to the connection. -/
def reply (r : Reply Itr) : Handler Itr σ Unit := fun s => .ok () { s with sent := s.sent ++ [r] }

/-- Call a method of the store. -/
def onStore (f : σ → V × σ) : Handler Itr σ V := fun s =>
  .ok (f s.store).1 { s with store := (f s.store).2 }

end Handlers

/-- The text of an error of `UnmarshalBinary`. -/
def errText : RpcErr → String
  | .requiredNotSet => "proto: required field not set"
  | .proto text => text
  | .codec text => text

/-- What `UnmarshalBinary` has made of its receiver, or the text of its error. -/
def decoded {R : Type} : R × Option RpcErr → Except String R
  | (r, none) => .ok r
  | (_, some e) => .error (errText e)

namespace Service

variable {P IC O S Itr σ : Type} (b : Service P IC O S Itr σ)

/-! ## Writes -/

def decodeWriteShard (buf : Bytes) : Except String WriteShardRequest :=
  decoded (WriteShardRequest.fresh.unmarshalBinary b.wire buf)

/-- `processWriteShardRequest`; `none` is nil. -/
def processWriteShardRequest (buf : Bytes) : Handler Itr σ (Option String) := do
  match b.decodeWriteShard buf with
  | .error text => return some text
  | .ok req =>
    match req.points b.points with
    | none => throw .parsePoint
    | some points => do
      let err ← onStore (b.store.writeToShard req.shardID points)
      match err with
      | none => return none
      | some .shardNotFound =>
        if req.database = "" ∨ req.retentionPolicy = "" then
          -- dropped, and only logged
          return none
        let err ← onStore (b.store.createShard req.database req.retentionPolicy req.shardID)
        match err with
        | some e => return some (s!"create shard {req.shardID}: {e.text}")
        | none =>
          let err ← onStore (b.store.writeToShard req.shardID points)
          match err with
          | some e => return some (s!"write shard {req.shardID}: {e.text}")
          | none => return none
      | some e => return some (s!"write shard {req.shardID}: {e.text}")

/-- `writeShardResponse`. -/
def writeShardResponse (e : Option String) : Handler Itr σ Unit :=
  match e with
  | some text => reply (.writeShard { code := 1, message := some text })
  | none => reply (.writeShard { code := 0, message := none })

/-- The branch of `handleConn` for a write. -/
def handleWriteShard : Handler Itr σ Unit := do
  match ← receive readLV with
  | .error _ =>
    -- logged; the connection is closed
    return ()
  | .ok buf =>
    let err ← b.processWriteShardRequest buf
    writeShardResponse err

/-! ## Iterators -/

def decodeCreateIterator (buf : Bytes) : Except String (CreateIteratorRequest O) :=
  decoded (CreateIteratorRequest.unmarshalBinary b.wire b.options ⟨[], b.noOptions⟩ buf)

/-- The loop over the shards: their creators, or `none` at the first one that is not there. -/
def collect : List UInt64 → σ → Option (List IC) × σ
  | [], st => (some [], st)
  | id :: ids, st =>
    match b.store.shardIteratorCreator id st with
    | (none, st) => (none, st)
    | (some ic, st) =>
      match collect ids st with
      | (none, st) => (none, st)
      | (some ics, st) => (some (ic :: ics), st)

/-- The function literal of `processCreateIteratorRequest`: its error, and `itr`. -/
def createIterator : Handler Itr σ (Option String × Option Itr) := do
  match ← receive (decodeLV b.decodeCreateIterator) with
  | .error text => return (some text, none)
  | .ok req =>
    match ← onStore (b.collect req.shardIDs) with
    | none => return (none, none)
    | some ics =>
      match b.iterators.createIterator ics req.opt with
      | .error text => return (some text, none)
      | .ok i => return (none, i)

/-- `itr.Close()`. -/
def closeIterator : Option Itr → Handler Itr σ Unit
  | none => throw .nilIterator
  | some _ => pure ()

/-- `processCreateIteratorRequest`. -/
def processCreateIteratorRequest : Handler Itr σ Unit := do
  let (err, itr) ← b.createIterator
  match err with
  | some text =>
    closeIterator itr
    reply (.createIterator { err := some text })
  | none =>
    reply (.createIterator { err := none })
    match itr with
    | none => return ()
    | some itr => reply (.iterator itr)

/-! ## Field dimensions -/

def decodeFieldDimensions (buf : Bytes) : Except String (FieldDimensionsRequest S) :=
  decoded (FieldDimensionsRequest.unmarshalBinary b.wire b.sources ⟨[], b.noSources⟩ buf)

/-- The function literal of `processFieldDimensionsRequest`: its error, or `fields` and
    `dimensions`. -/
def fieldDimensions : Handler Itr σ (Except String (Finset String × Finset String)) := do
  match ← receive (decodeLV b.decodeFieldDimensions) with
  | .error text => return .error text
  | .ok req =>
    match ← onStore (b.collect req.shardIDs) with
    | none => return .ok (∅, ∅)
    | some ics => return b.iterators.fieldDimensions ics req.sources

/-- `processFieldDimensionsRequest`. -/
def processFieldDimensionsRequest : Handler Itr σ Unit := do
  match ← b.fieldDimensions with
  | .error text => reply (.fieldDimensions { fields := ∅, dimensions := ∅, err := some text })
  | .ok (fields, dimensions) =>
    reply (.fieldDimensions { fields := fields, dimensions := dimensions, err := none })

end Service

/-! ## Requests -/

/-- The requests in question. -/
inductive Kind
  | writeShard
  | createIterator
  | fieldDimensions
  deriving DecidableEq

section Requests

variable {P IC O S Itr σ : Type} (b : Service P IC O S Itr σ)

/-- What is done with a request, once its type has been read. -/
def Kind.handle : Kind → Handler Itr σ Unit
  | writeShard => b.handleWriteShard
  | createIterator => b.processCreateIteratorRequest
  | fieldDimensions => b.processFieldDimensionsRequest

/-- The payload can be read, down to the last layer. -/
def Kind.Decodes (payload : Bytes) : Kind → Prop
  | writeShard => ∃ req points, b.decodeWriteShard payload = .ok req ∧
      req.points b.points = some points
  | createIterator => ∃ req, b.decodeCreateIterator payload = .ok req
  | fieldDimensions => ∃ req, b.decodeFieldDimensions payload = .ok req

/-- The reply that says why. -/
def Kind.errorReply (text : String) : Kind → Reply Itr
  | writeShard => .writeShard { code := 1, message := some text }
  | createIterator => .createIterator { err := some text }
  | fieldDimensions => .fieldDimensions { fields := ∅, dimensions := ∅, err := some text }

/-- A connection with a well-framed request whose type has been read, and with whatever follows. -/
def framed (f : Frame) (rest : Bytes) (sent : List (Reply Itr)) (store : σ) : Served Itr σ where
  input := beBytes 8 f.payload.length ++ (f.payload ++ rest)
  sent := sent
  store := store

/-- **The handler survives the request**: it finishes, and if the payload cannot be read its reply
    is an error. -/
def Kind.Survives (f : Frame) (rest : Bytes) (sent : List (Reply Itr)) (store : σ) (k : Kind) :
    Prop :=
  ∃ s', k.handle b (framed f rest sent store) = .ok () s' ∧
    (¬ k.Decodes b f.payload → ∃ text, s'.sent = sent ++ [k.errorReply text])

/-- **The requests that do no harm**: a write all of whose points can be read, if the message can;
    an iterator whose request can be read, and whose iterator can be made if every shard is there;
    field dimensions of every kind. -/
def Kind.Benign (payload : Bytes) (store : σ) : Kind → Prop
  | writeShard => ∀ req, b.decodeWriteShard payload = .ok req → req.points b.points ≠ none
  | createIterator => ∃ req, b.decodeCreateIterator payload = .ok req ∧
      ∀ ics, (b.collect req.shardIDs store).1 = some ics →
        ∃ i, b.iterators.createIterator ics req.opt = .ok i
  | fieldDimensions => True

/-! ## One request -/

variable {b} {f : Frame} {rest : Bytes} {sent : List (Reply Itr)} {store : σ}

/-- The payload of the frame is read, and the rest is left. -/
theorem receive_readLV :
    receive readLV (framed f rest sent store) = .ok (.ok f.payload) ⟨rest, sent, store⟩ := by
  unfold receive framed
  rw [readLV_append f.small rest]

/-- A value that is framed is read, and then it is a matter of `UnmarshalBinary`. -/
theorem receive_decodeLV {V : Type} (u : Bytes → Except String V) :
    receive (decodeLV u) (framed f rest sent store) = .ok (u f.payload) ⟨rest, sent, store⟩ := by
  unfold receive framed
  rw [decodeLV, bind_ok (readLV_append f.small rest)]
  cases u f.payload with
  | ok v => rfl
  | error text => rfl

theorem onStore_run {V : Type} (g : σ → V × σ) (s : Served Itr σ) :
    onStore g s = .ok (g s.store).1 { s with store := (g s.store).2 } := rfl

theorem handleWriteShard_eq :
    b.handleWriteShard (framed f rest sent store)
      = (b.processWriteShardRequest f.payload >>= Service.writeShardResponse)
          ⟨rest, sent, store⟩ := by
  rw [Service.handleWriteShard, bind_ok receive_readLV]

/-- A request that is not decoded writes nothing. -/
theorem processWriteShardRequest_undecoded {buf : Bytes} {text : String} {s : Served Itr σ}
    (h : b.decodeWriteShard buf = .error text) :
    b.processWriteShardRequest buf s = .ok (some text) s := by
  simp only [Service.processWriteShardRequest, h]
  rfl

/-- A point that does not parse takes the goroutine down. -/
theorem processWriteShardRequest_panics {buf : Bytes} {req : WriteShardRequest} {s : Served Itr σ}
    (h : b.decodeWriteShard buf = .ok req) (hp : req.points b.points = none) :
    b.processWriteShardRequest buf s = .error .parsePoint s := by
  simp only [Service.processWriteShardRequest, h, hp]
  rfl

/-- Whatever the store answers, the write is answered. -/
theorem processWriteShardRequest_returns {buf : Bytes} {req : WriteShardRequest} {points : List P}
    {s : Served Itr σ} (h : b.decodeWriteShard buf = .ok req)
    (hp : req.points b.points = some points) :
    ∃ e st, b.processWriteShardRequest buf s = .ok e { s with store := st } := by
  simp only [Service.processWriteShardRequest, h, hp]
  rw [bind_ok (onStore_run _ s)]
  rcases (b.store.writeToShard req.shardID points s.store).1 with _ | _ | text
  · exact ⟨_, _, rfl⟩
  · dsimp only
    split
    · exact ⟨_, _, rfl⟩
    · rw [bind_ok (onStore_run _ _)]
      rcases (b.store.createShard req.database req.retentionPolicy req.shardID _).1 with _ | e
      · dsimp only
        rw [bind_ok (onStore_run _ _)]
        rcases (b.store.writeToShard req.shardID points _).1 with _ | e
        · exact ⟨_, _, rfl⟩
        · exact ⟨_, _, rfl⟩
      · exact ⟨_, _, rfl⟩
  · exact ⟨_, _, rfl⟩

/-- **Which write requests the connection survives.** -/
theorem writeShard_survives_iff :
    Kind.writeShard.Survives b f rest sent store ↔ Kind.writeShard.Benign b f.payload store := by
  rw [Kind.Survives, Kind.handle, handleWriteShard_eq]
  cases hd : b.decodeWriteShard f.payload with
  | error text =>
    rw [bind_ok (processWriteShardRequest_undecoded hd)]
    refine ⟨fun _ req hreq => ?_, fun _ => ⟨_, rfl, fun _ => ⟨text, rfl⟩⟩⟩
    rw [hd] at hreq
    cases hreq
  | ok req =>
    cases hp : req.points b.points with
    | none =>
      rw [bind_error (processWriteShardRequest_panics hd hp)]
      constructor
      · rintro ⟨s', hs', -⟩
        cases hs'
      · exact fun h => absurd hp (h req hd)
    | some points =>
      obtain ⟨e, st, hrun⟩ := processWriteShardRequest_returns (s := ⟨rest, sent, store⟩) hd hp
      have hdecodes : Kind.writeShard.Decodes b f.payload := ⟨req, points, hd, hp⟩
      rw [bind_ok hrun]
      constructor
      · intro _ req' hreq'
        rw [hd] at hreq'
        cases hreq'
        rw [hp]
        exact Option.some_ne_none points
      · intro _
        cases e with
        | none => exact ⟨_, rfl, fun hn => absurd hdecodes hn⟩
        | some text => exact ⟨_, rfl, fun hn => absurd hdecodes hn⟩

/-! ### Iterators -/

/-- No iterator for a request that is not decoded. -/
theorem createIterator_undecoded {text : String}
    (h : b.decodeCreateIterator f.payload = .error text) :
    b.createIterator (framed f rest sent store) = .ok (some text, none) ⟨rest, sent, store⟩ := by
  rw [Service.createIterator, bind_ok (receive_decodeLV _), h]
  rfl

/-- Once the request has been read, what happens depends on the shards. -/
theorem createIterator_decoded {req : CreateIteratorRequest O}
    (h : b.decodeCreateIterator f.payload = .ok req) :
    b.createIterator (framed f rest sent store) = .ok
      (match (b.collect req.shardIDs store).1 with
        | none => (none, none)
        | some ics =>
          match b.iterators.createIterator ics req.opt with
          | .error text => (some text, none)
          | .ok i => (none, i))
      ⟨rest, sent, (b.collect req.shardIDs store).2⟩ := by
  rw [Service.createIterator, bind_ok (receive_decodeLV _), h]
  dsimp only
  rw [bind_ok (onStore_run _ _)]
  cases (b.collect req.shardIDs store).1 with
  | none => rfl
  | some ics =>
    dsimp only
    cases b.iterators.createIterator ics req.opt with
    | error text => rfl
    | ok i => rfl

/-- **Every error of the function literal ends in a panic**: there is no iterator yet. -/
theorem processCreateIterator_panics {text : String} {s : Served Itr σ}
    (h : b.createIterator (framed f rest sent store) = .ok (some text, none) s) :
    b.processCreateIteratorRequest (framed f rest sent store) = .error .nilIterator s := by
  rw [Service.processCreateIteratorRequest, bind_ok h]
  rfl

theorem processCreateIterator_returns {itr : Option Itr} {s : Served Itr σ}
    (h : b.createIterator (framed f rest sent store) = .ok (none, itr) s) :
    ∃ s', b.processCreateIteratorRequest (framed f rest sent store) = .ok () s' := by
  rw [Service.processCreateIteratorRequest, bind_ok h]
  cases itr with
  | none => exact ⟨_, rfl⟩
  | some itr => exact ⟨_, rfl⟩

/-- **Which requests for an iterator it survives.** -/
theorem createIterator_survives_iff :
    Kind.createIterator.Survives b f rest sent store
      ↔ Kind.createIterator.Benign b f.payload store := by
  rw [Kind.Survives, Kind.handle]
  cases hd : b.decodeCreateIterator f.payload with
  | error text =>
    rw [processCreateIterator_panics (createIterator_undecoded hd)]
    constructor
    · rintro ⟨s', hs', -⟩
      cases hs'
    · rintro ⟨req, hreq, -⟩
      rw [hd] at hreq
      cases hreq
  | ok req =>
    have hrun : b.createIterator (framed f rest sent store) = _ := createIterator_decoded hd
    have hdecodes : Kind.createIterator.Decodes b f.payload := ⟨req, hd⟩
    cases hc : (b.collect req.shardIDs store).1 with
    | none =>
      rw [hc] at hrun
      obtain ⟨s', hs'⟩ := processCreateIterator_returns hrun
      refine ⟨fun _ => ⟨req, hd, fun ics hics => ?_⟩, fun _ => ⟨s', hs', fun hn => absurd hdecodes hn⟩⟩
      rw [hc] at hics
      cases hics
    | some ics =>
      rw [hc] at hrun
      dsimp only at hrun
      cases hi : b.iterators.createIterator ics req.opt with
      | error text =>
        rw [hi] at hrun
        rw [processCreateIterator_panics hrun]
        constructor
        · rintro ⟨s', hs', -⟩
          cases hs'
        · rintro ⟨req', hreq', hall⟩
          rw [hd] at hreq'
          cases hreq'
          obtain ⟨i, hok⟩ := hall ics hc
          rw [hi] at hok
          cases hok
      | ok i =>
        rw [hi] at hrun
        obtain ⟨s', hs'⟩ := processCreateIterator_returns hrun
        refine ⟨fun _ => ⟨req, hd, fun ics' hics => ?_⟩,
          fun _ => ⟨s', hs', fun hn => absurd hdecodes hn⟩⟩
        rw [hc] at hics
        cases hics
        exact ⟨i, hi⟩

/-! ### Field dimensions -/

/-- The text of the error is the answer. -/
theorem fieldDimensions_undecoded {text : String}
    (h : b.decodeFieldDimensions f.payload = .error text) :
    b.fieldDimensions (framed f rest sent store) = .ok (.error text) ⟨rest, sent, store⟩ := by
  rw [Service.fieldDimensions, bind_ok (receive_decodeLV _), h]
  rfl

theorem fieldDimensions_decoded {req : FieldDimensionsRequest S}
    (h : b.decodeFieldDimensions f.payload = .ok req) :
    b.fieldDimensions (framed f rest sent store) = .ok
      (match (b.collect req.shardIDs store).1 with
        | none => .ok (∅, ∅)
        | some ics => b.iterators.fieldDimensions ics req.sources)
      ⟨rest, sent, (b.collect req.shardIDs store).2⟩ := by
  rw [Service.fieldDimensions, bind_ok (receive_decodeLV _), h]
  dsimp only
  rw [bind_ok (onStore_run _ _)]
  cases (b.collect req.shardIDs store).1 with
  | none => rfl
  | some ics => rfl

/-- The response to what the function literal has returned. -/
def responseTo : Except String (Finset String × Finset String) → FieldDimensionsResponse
  | .error text => { fields := ∅, dimensions := ∅, err := some text }
  | .ok (fields, dimensions) => { fields := fields, dimensions := dimensions, err := none }

theorem processFieldDimensions_replies {r : Except String (Finset String × Finset String)}
    {st : σ} (h : b.fieldDimensions (framed f rest sent store) = .ok r ⟨rest, sent, st⟩) :
    b.processFieldDimensionsRequest (framed f rest sent store)
      = .ok () ⟨rest, sent ++ [.fieldDimensions (responseTo r)], st⟩ := by
  rw [Service.processFieldDimensionsRequest, bind_ok h]
  cases r with
  | error text => rfl
  | ok fd => rfl

/-- **It survives all requests for dimensions.** -/
theorem fieldDimensions_survives : Kind.fieldDimensions.Survives b f rest sent store := by
  rw [Kind.Survives, Kind.handle]
  cases hd : b.decodeFieldDimensions f.payload with
  | error text =>
    exact ⟨_, processFieldDimensions_replies (fieldDimensions_undecoded hd), fun _ => ⟨text, rfl⟩⟩
  | ok req =>
    exact ⟨_, processFieldDimensions_replies (fieldDimensions_decoded hd),
      fun hn => absurd ⟨req, hd⟩ hn⟩

/-- **When the handlers survive a request.**  Whatever the payload of a well-framed request and
    whatever the store does, the handler finishes, with an error for a payload that cannot be read,
    if and only if the request is benign. -/
theorem handlers_survive_iff (b : Service P IC O S Itr σ) (k : Kind) (f : Frame) (rest : Bytes)
    (sent : List (Reply Itr)) (store : σ) :
    k.Survives b f rest sent store ↔ k.Benign b f.payload store := by
  cases k with
  | writeShard => exact writeShard_survives_iff
  | createIterator => exact createIterator_survives_iff
  | fieldDimensions => exact ⟨fun _ => trivial, fun _ => fieldDimensions_survives⟩

end Requests

/-- A codec without contents. -/
def voidCodec : BinaryCodec Unit := ⟨fun _ => .ok [], fun _ => .ok ()⟩

/-- The shards of a small store. -/
def hostShards (id : UInt64) : Option UInt64 := if id = 1 ∨ id = 2 then some id else none

/-- A service with the shards 1 and 2; a point is never empty. -/
def smallService : Service Unit UInt64 Unit Unit Unit Unit where
  wire := dataProto
  points := ⟨fun _ => .ok [0], fun d => if d = [] then .error "missing measurement" else .ok ()⟩
  options := voidCodec
  sources := voidCodec
  noOptions := ()
  noSources := ()
  store :=
    { writeToShard := fun _ _ st => (none, st)
      createShard := fun _ _ _ st => (none, st)
      shardIteratorCreator := fun id st => (hostShards id, st) }
  iterators :=
    { createIterator := fun _ _ => .ok none
      fieldDimensions := fun _ _ => .ok (∅, ∅) }

/-- **Two payloads that end the data node**: a write to shard 1 of a point that cannot be read, and
    a request for an iterator without the options, which are required. -/
theorem handlers_panic :
    failure (Kind.writeShard.handle smallService (framed ⟨1, [8, 1, 18, 0], by decide⟩ [] [] ()))
        = some .parsePoint ∧
      failure (Kind.createIterator.handle smallService (framed ⟨1, [8, 1], by decide⟩ [] [] ()))
        = some .nilIterator := by
  decide +kernel

/-! ## The field dimensions of several shards -/

section Union

variable {P IC O S Itr σ : Type} {b : Service P IC O S Itr σ} {lookup : UInt64 → Option IC}

/-- The union over a list. -/
def unionOf {α : Type} (g : α → Finset String) (l : List α) : Finset String :=
  l.foldr (fun a u => g a ∪ u) ∅

theorem mem_unionOf {α : Type} {g : α → Finset String} {l : List α} {x : String} :
    x ∈ unionOf g l ↔ ∃ a ∈ l, x ∈ g a := by
  induction l with
  | nil =>
    constructor
    · intro h
      exact absurd h (Finset.notMem_empty x)
    · rintro ⟨a, ha, -⟩
      exact absurd ha List.not_mem_nil
  | cons a l ih =>
    show x ∈ g a ∪ unionOf g l ↔ _
    rw [Finset.mem_union, ih, List.exists_mem_cons_iff]

/-- With every shard there, the loop collects them all. -/
theorem collect_all (hstore : ∀ id st, b.store.shardIteratorCreator id st = (lookup id, st))
    {ids : List UInt64} (h : ∀ id ∈ ids, (lookup id).isSome) (st : σ) :
    b.collect ids st = (some (ids.filterMap lookup), st) := by
  induction ids with
  | nil => rfl
  | cons id ids ih =>
    obtain ⟨ic, hic⟩ := Option.isSome_iff_exists.mp (h id List.mem_cons_self)
    have hrest := ih fun id' hid' => h id' (List.mem_cons_of_mem id hid')
    rw [Service.collect, hstore, hic]
    dsimp only
    rw [hrest, List.filterMap_cons_some hic]

/-- **At the first shard that is missing, the loop returns with nothing.** -/
theorem collect_missing (hstore : ∀ id st, b.store.shardIteratorCreator id st = (lookup id, st))
    {ids : List UInt64} (h : ∃ id ∈ ids, lookup id = none) (st : σ) :
    b.collect ids st = (none, st) := by
  induction ids with
  | nil =>
    obtain ⟨id, hid, -⟩ := h
    exact absurd hid List.not_mem_nil
  | cons id ids ih =>
    rw [Service.collect, hstore]
    cases hic : lookup id with
    | none => rfl
    | some ic =>
      -- this one is there, so the missing one comes later
      have hrest : ∃ id ∈ ids, lookup id = none := by
        obtain ⟨id', hid', hnone⟩ := h
        rcases List.mem_cons.mp hid' with rfl | hmem
        · rw [hic] at hnone
          cases hnone
        · exact ⟨id', hmem, hnone⟩
      dsimp only
      rw [ih hrest]

/-- **The response is the union over the requested shards that are there.** -/
structure IsUnion (lookup : UInt64 → Option IC) (fields dimensions : IC → S → Finset String)
    (req : FieldDimensionsRequest S) (r : FieldDimensionsResponse) : Prop where
  err : r.err = none
  mem_fields : ∀ x, x ∈ r.fields ↔
    ∃ id ∈ req.shardIDs, ∃ ic ∈ lookup id, x ∈ fields ic req.sources
  mem_dimensions : ∀ x, x ∈ r.dimensions ↔
    ∃ id ∈ req.shardIDs, ∃ ic ∈ lookup id, x ∈ dimensions ic req.sources

theorem mem_unionOf_filterMap {g : IC → Finset String} {ids : List UInt64} {x : String} :
    x ∈ unionOf g (ids.filterMap lookup) ↔ ∃ id ∈ ids, ∃ ic ∈ lookup id, x ∈ g ic := by
  rw [mem_unionOf]
  constructor
  · rintro ⟨ic, hic, hx⟩
    obtain ⟨id, hid, hlookup⟩ := List.mem_filterMap.mp hic
    exact ⟨id, hid, ic, hlookup, hx⟩
  · rintro ⟨id, hid, ic, hlookup, hx⟩
    exact ⟨ic, List.mem_filterMap.mpr ⟨id, hid, hlookup⟩, hx⟩

variable {fields dimensions : IC → S → Finset String} {req : FieldDimensionsRequest S}

/-- Nothing is the union exactly if the shards that are there have nothing. -/
theorem isUnion_empty_iff :
    IsUnion lookup fields dimensions req (responseTo (.ok (∅, ∅)))
      ↔ ∀ id ∈ req.shardIDs, ∀ ic ∈ lookup id,
          fields ic req.sources = ∅ ∧ dimensions ic req.sources = ∅ := by
  constructor
  · intro h id hid ic hic
    refine ⟨Finset.eq_empty_of_forall_notMem fun x hx => ?_,
      Finset.eq_empty_of_forall_notMem fun x hx => ?_⟩
    · exact Finset.notMem_empty x ((h.mem_fields x).mpr ⟨id, hid, ic, hic, hx⟩)
    · exact Finset.notMem_empty x ((h.mem_dimensions x).mpr ⟨id, hid, ic, hic, hx⟩)
  · intro h
    refine ⟨rfl, fun x => ⟨fun hx => absurd hx (Finset.notMem_empty x), ?_⟩,
      fun x => ⟨fun hx => absurd hx (Finset.notMem_empty x), ?_⟩⟩
    · rintro ⟨id, hid, ic, hic, hx⟩
      rwa [(h id hid ic hic).1] at hx
    · rintro ⟨id, hid, ic, hic, hx⟩
      rwa [(h id hid ic hic).2] at hx

/-- **When a missing shard hides the others.**  The fields and dimensions answered are those of the
    requested shards that the store has, in whatever order they are named, if and only if none of
    the requested shards is missing, or those that are there have no fields and no dimensions. -/
theorem fieldDimensions_union_iff
    (hstore : ∀ id st, b.store.shardIteratorCreator id st = (lookup id, st))
    (hunion : ∀ ics sources, b.iterators.fieldDimensions ics sources
      = .ok (unionOf (fields · sources) ics, unionOf (dimensions · sources) ics))
    {f : Frame} (hreq : b.decodeFieldDimensions f.payload = .ok req) (rest : Bytes)
    (sent : List (Reply Itr)) (store : σ) :
    (∃ s' r, b.processFieldDimensionsRequest (framed f rest sent store) = .ok () s' ∧
        s'.sent = sent ++ [.fieldDimensions r] ∧ IsUnion lookup fields dimensions req r)
      ↔ (∀ id ∈ req.shardIDs, (lookup id).isSome) ∨
        ∀ id ∈ req.shardIDs, ∀ ic ∈ lookup id,
          fields ic req.sources = ∅ ∧ dimensions ic req.sources = ∅ := by
  have hrun : b.processFieldDimensionsRequest (framed f rest sent store) = _ :=
    processFieldDimensions_replies (fieldDimensions_decoded hreq)
  by_cases hall : ∀ id ∈ req.shardIDs, (lookup id).isSome
  · refine iff_of_true ⟨_, _, hrun, rfl, ?_⟩ (.inl hall)
    rw [collect_all hstore hall]
    dsimp only
    rw [hunion]
    exact ⟨rfl, fun x => mem_unionOf_filterMap, fun x => mem_unionOf_filterMap⟩
  · have hmissing : ∃ id ∈ req.shardIDs, lookup id = none := by
      by_contra hno
      refine hall fun id hid => Option.isSome_iff_ne_none.mpr fun hnone => ?_
      exact hno ⟨id, hid, hnone⟩
    rw [collect_missing hstore hmissing] at hrun
    dsimp only at hrun
    rw [or_iff_right hall, ← isUnion_empty_iff]
    constructor
    · rintro ⟨s', r, hs', hsent, hr⟩
      rw [hrun] at hs'
      cases hs'
      have hreply := List.append_cancel_left hsent
      cases hreply
      exact hr
    · intro h
      exact ⟨_, _, hrun, rfl, h⟩

end Union

/-- The fields of a shard of the small store. -/
def hostFields (id : UInt64) : Finset String := if id = 1 then {"value"} else {"value", "idle"}

/-- Its dimensions. -/
def hostDimensions (id : UInt64) : Finset String := if id = 1 then {"host"} else {"region"}

/-- The same service, with these fields and dimensions. -/
def hostService : Service Unit UInt64 Unit Unit Unit Unit :=
  { smallService with
    iterators := { smallService.iterators with
      fieldDimensions := fun ics _ => .ok (unionOf hostFields ics, unionOf hostDimensions ics) } }

/-- Both shards are asked for, and both are in the answer. -/
theorem fieldDimensions_union_two :
    (final (hostService.processFieldDimensionsRequest
        (framed ⟨1, [8, 1, 8, 2, 18, 0], by decide⟩ [] [] ()))).sent
      = [.fieldDimensions
          { fields := {"value", "idle"}, dimensions := {"host", "region"}, err := none }] ∧
    ∃ s' r, hostService.processFieldDimensionsRequest
          (framed ⟨1, [8, 1, 8, 2, 18, 0], by decide⟩ [] [] ()) = .ok () s' ∧
      s'.sent = [] ++ [.fieldDimensions r] ∧
      IsUnion hostShards (fun id _ => hostFields id) (fun id _ => hostDimensions id)
        ⟨[1, 2], ()⟩ r := by
  refine ⟨by decide +kernel, (fieldDimensions_union_iff ?_ ?_ ?_ [] [] ()).mpr (.inl ?_)⟩
  · exact fun _ _ => rfl
  · exact fun _ _ => rfl
  · decide +kernel
  · intro id hid
    rcases List.mem_pair.mp hid with rfl | rfl
    · exact Option.isSome_some
    · exact Option.isSome_some

/-- **Shard 3 is not there, and hides shard 1.** -/
theorem missing_shard_hides_others :
    hostShards 1 = some 1 ∧ hostFields 1 = {"value"} ∧
      (final (hostService.processFieldDimensionsRequest
        (framed ⟨1, [8, 1, 8, 3, 18, 0], by decide⟩ [] [] ()))).sent
        = [.fieldDimensions { fields := ∅, dimensions := ∅, err := none }] := by
  decide +kernel

end InfluxCluster.Cluster
