/-
  A conversation on a connection of the cluster service: requests in, responses out.

  `HandleConn` says which requests the loop dispatches, and `Handlers` what becomes of one.  Here
  the loop runs on a CONNECTION AND A STORE: it reads a type, serves the request, and writes the
  response before it reads the next type.

  What a request asks of the store is a function of the store alone (`TSDBStore.write`), and a
  conversation is these functions, one after the other (`answers`).  The layers fit together:

  1. one turn on a frame is one call of its function, and one response (`turn_asks`);
  2. the loop on a stream of frames makes the calls IN ORDER and ends with the stream
     (`converse_stream`);
  3. what was built with the setters of `WriteShardRequest` and framed is what is asked, and the
     responses are read back (`remote_writes_in_order`).

  So who writes requests to a connection and then reads as many responses learns, request by
  request, what the store has answered.  What nobody learns is that a write has been dropped
  (`TSDBStore.Drops`): it is answered like one that is stored.
-/
import InfluxCluster.Cluster.HandleConn
import InfluxCluster.Cluster.Handlers

namespace InfluxCluster.Cluster

open InfluxCluster.Lib InfluxCluster.Tlv InfluxCluster.Rpc

/-! ## The loop -/

section Loop

variable {P IC O S Itr σ : Type} (b : Service P IC O S Itr σ) (t : MessageTypes)
  (execute : Bytes → σ → Option String × σ)

/-- The branches that read a value and answer it. -/
def Service.serve (process : Bytes → Handler Itr σ (Option String)) : Handler Itr σ Bool := do
  match ← receive readLV with
  | .error _ => return false
  | .ok buf =>
    let err ← process buf
    writeShardResponse err
    return true

/-- One pass of the loop of `handleConn`: whether it goes on.  `execute` is
    `processExecuteStatementRequest`, which is called and nowhere defined. -/
def Service.turn : Handler Itr σ Bool := do
  match ← receive readType with
  | .error _ => return false
  | .ok typ =>
    if typ = t.writeShardRequest then Service.serve b.processWriteShardRequest
    else if typ = t.executeStatementRequest then Service.serve fun buf => onStore (execute buf)
    else if typ = t.createIteratorRequest then do
      b.processCreateIteratorRequest
      return false
    else if typ = t.fieldDimensionsRequest then do
      b.processFieldDimensionsRequest
      return false
    else return true

/-- The loop of `handleConn`: whether it has returned before the fuel ran out. -/
def Service.converse : Nat → Handler Itr σ Bool
  | 0 => return false
  | fuel + 1 => do
    if ← b.turn t execute then converse fuel else return true

/-! ## What is asked of the store -/

/-- A write at the store: the text of the error, and the store after it.  A shard that is missing is
    made, if the request says in which database and policy; a write without them to a shard that is
    missing is DROPPED, and no error says so. -/
def TSDBStore.write (store : TSDBStore P IC σ) (id : UInt64) (database retentionPolicy : String)
    (points : List P) (st : σ) : Option String × σ :=
  match store.writeToShard id points st with
  | (none, st) => (none, st)
  | (some .shardNotFound, st) =>
    if database = "" ∨ retentionPolicy = "" then (none, st)
    else
      match store.createShard database retentionPolicy id st with
      | (some e, st) => (some (s!"create shard {id}: {e.text}"), st)
      | (none, st) =>
        match store.writeToShard id points st with
        | (some e, st) => (some (s!"write shard {id}: {e.text}"), st)
        | (none, st) => (none, st)
  | (some (.other text), st) => (some (s!"write shard {id}: {text}"), st)

/-- The answers to requests, one after the other, and the store after them. -/
def answers : List (σ → Option String × σ) → σ → List (Option String) × σ
  | [], st => ([], st)
  | g :: gs, st =>
    let (e, st) := g st
    let (es, st) := answers gs st
    (e :: es, st)

theorem answers_cons (g : σ → Option String × σ) (gs : List (σ → Option String × σ)) (st : σ) :
    answers (g :: gs) st = ((g st).1 :: (answers gs (g st).2).1, (answers gs (g st).2).2) := rfl

/-- The response to a request. -/
def responseFor (e : Option String) : WriteShardResponse :=
  match e with
  | some text => { code := 1, message := some text }
  | none => { code := 0, message := none }

/-- What a frame asks of the store. -/
inductive Asks : Frame → (σ → Option String × σ) → Prop
  | write {f : Frame} {req : WriteShardRequest} {points : List P}
      (htyp : f.typ = t.writeShardRequest) (hreq : b.decodeWriteShard f.payload = .ok req)
      (hpoints : req.points b.points = some points) :
      Asks f (b.store.write req.shardID req.database req.retentionPolicy points)
  | execute {f : Frame} (htyp : f.typ = t.executeStatementRequest) : Asks f (execute f.payload)

variable {b t execute}

/-- **A write that can be read is one call of `write`.** -/
theorem processWriteShardRequest_eq {buf : Bytes} {req : WriteShardRequest} {points : List P}
    (hreq : b.decodeWriteShard buf = .ok req) (hpoints : req.points b.points = some points)
    (s : Served Itr σ) :
    b.processWriteShardRequest buf s =
      .ok (b.store.write req.shardID req.database req.retentionPolicy points s.store).1
        { s with
          store := (b.store.write req.shardID req.database req.retentionPolicy points s.store).2 } := by
  simp only [Service.processWriteShardRequest, hreq, hpoints, TSDBStore.write]
  rw [bind_ok (onStore_run _ s)]
  rcases b.store.writeToShard req.shardID points s.store with ⟨_ | _ | text, st⟩
  · rfl
  · dsimp only
    by_cases hnone : req.database = "" ∨ req.retentionPolicy = ""
    · rw [if_pos hnone, if_pos hnone]
      rfl
    · rw [if_neg hnone, if_neg hnone, bind_ok (onStore_run _ _)]
      dsimp only
      rcases b.store.createShard req.database req.retentionPolicy req.shardID st with ⟨_ | e, st'⟩
      · dsimp only
        rw [bind_ok (onStore_run _ _)]
        dsimp only
        rcases b.store.writeToShard req.shardID points st' with ⟨_ | e, st''⟩
        · rfl
        · rfl
      · rfl
  · rfl

theorem writeShardResponse_eq (e : Option String) (s : Served Itr σ) :
    Service.writeShardResponse e s
      = .ok () { s with sent := s.sent ++ [.writeShard (responseFor e)] } := by
  cases e with
  | none => rfl
  | some text => rfl

/-- One more response, and another store. -/
theorem serve_framed {process : Bytes → Handler Itr σ (Option String)} {f : Frame}
    {g : σ → Option String × σ}
    (hprocess : ∀ s, process f.payload s = .ok (g s.store).1 { s with store := (g s.store).2 })
    (rest : Bytes) (sent : List (Reply Itr)) (store : σ) :
    Service.serve process (framed f rest sent store)
      = .ok true ⟨rest, sent ++ [.writeShard (responseFor (g store).1)], (g store).2⟩ := by
  rw [Service.serve, bind_ok receive_readLV]
  dsimp only
  rw [bind_ok (hprocess _), bind_ok (writeShardResponse_eq _ _)]
  rfl

theorem receive_readType (typ : UInt8) (rest : Bytes) (sent : List (Reply Itr)) (store : σ) :
    receive readType ⟨typ :: rest, sent, store⟩ = .ok (.ok typ) ⟨rest, sent, store⟩ := by
  rw [receive, readType_cons]

/-- **One turn on a frame is one call at the store and one response.** -/
theorem turn_asks {f : Frame} {g : σ → Option String × σ} (h : Asks b t execute f g) (rest : Bytes)
    (sent : List (Reply Itr)) (store : σ) :
    b.turn t execute ⟨encode f.typ f.payload ++ rest, sent, store⟩
      = .ok true ⟨rest, sent ++ [.writeShard (responseFor (g store).1)], (g store).2⟩ := by
  have hframe : (⟨encode f.typ f.payload ++ rest, sent, store⟩ : Served Itr σ)
      = ⟨f.typ :: (framed f rest sent store).input, sent, store⟩ := by
    rw [encode_eq]
    simp only [framed, List.cons_append, List.append_assoc]
  rw [hframe, Service.turn, bind_ok (receive_readType _ _ _ _)]
  dsimp only
  cases h with
  | write htyp hreq hpoints =>
    rw [if_pos htyp]
    exact serve_framed (processWriteShardRequest_eq hreq hpoints) rest sent store
  | execute htyp =>
    have hne : f.typ ≠ t.writeShardRequest := by
      intro he
      have hd := t.distinct
      rw [← he, ← htyp] at hd
      exact (List.nodup_cons.mp hd).1 List.mem_cons_self
    rw [if_neg hne, if_pos htyp]
    exact serve_framed (fun s => onStore_run (execute f.payload) s) rest sent store

/-- **The loop on a stream of frames makes the calls in order**, answers each of them once, and ends
    with the stream. -/
theorem converse_stream {fs : List Frame} {gs : List (σ → Option String × σ)}
    (h : List.Forall₂ (Asks b t execute) fs gs) (sent : List (Reply Itr)) (store : σ) {fuel : Nat}
    (hfuel : fs.length < fuel) :
    b.converse t execute fuel ⟨stream fs, sent, store⟩
      = .ok true ⟨[], sent ++ (answers gs store).1.map fun e => .writeShard (responseFor e),
          (answers gs store).2⟩ := by
  induction h generalizing sent store fuel with
  | nil =>
    obtain ⟨fuel, rfl⟩ := Nat.exists_eq_add_one.mpr hfuel
    -- the end of the stream is where a type should be
    have hturn : b.turn t execute (⟨stream [], sent, store⟩ : Served Itr σ)
        = .ok false ⟨[], sent, store⟩ := rfl
    rw [Service.converse, bind_ok hturn]
    simp only [answers, List.map_nil, List.append_nil]
    rfl
  | @cons f g fs gs hfg hrest ih =>
    obtain ⟨fuel, rfl⟩ := Nat.exists_eq_add_one.mpr (Nat.zero_lt_of_lt hfuel)
    rw [Service.converse, stream_cons, bind_ok (turn_asks hfg _ _ _), if_pos rfl,
      ih _ _ (Nat.lt_of_succ_lt_succ hfuel), answers_cons]
    simp only [List.map_cons, List.append_assoc, List.cons_append, List.nil_append]

end Loop

/-! ## The response on the wire -/

/-- `internal.WriteShardResponse`. -/
structure WriteShardResponsePB where
  code : Option Int32
  message : Option String
  deriving DecidableEq

instance : Message WriteShardResponsePB := ⟨fun pb => pb.code.isSome⟩

namespace WriteShardResponse

variable (R : Proto WriteShardResponsePB)

/-- `SetCode` and `SetMessage`. -/
def pb (r : WriteShardResponse) : WriteShardResponsePB := ⟨some (Int32.ofInt r.code), r.message⟩

/-- `MarshalBinary`. -/
def marshalBinary (r : WriteShardResponse) : Except RpcErr Bytes := R.marshal r.pb

/-- `UnmarshalBinary`, and then `Code` and `Message`. -/
def unmarshalBinary (buf : Bytes) : Except String (Int × String) :=
  match R.decode buf with
  | (_, some text) => .error text
  | (pb, none) => .ok ((pb.code.getD 0).toInt, pb.message.getD "")

/-- What `writeShardResponse` writes; a response that cannot be encoded is only logged. -/
def bytes (typ : UInt8) (r : WriteShardResponse) : Bytes :=
  match r.marshalBinary R with
  | .error _ => []
  | .ok buf => encode typ buf

end WriteShardResponse

/-- What the other side has been sent, if it is responses to writes. -/
def responses {Itr : Type} (R : Proto WriteShardResponsePB) (typ : UInt8) (sent : List (Reply Itr)) :
    Bytes :=
  sent.flatMap fun
    | .writeShard r => r.bytes R typ
    | _ => []

/-- `DecodeTLV` so many times. -/
def decodeTLVs {V : Type} (unmarshalBinary : Bytes → Except String V) :
    Nat → Reader (List (UInt8 × V))
  | 0 => pure []
  | n + 1 => do
    let r ← decodeTLV unmarshalBinary
    let rs ← decodeTLVs unmarshalBinary n
    pure (r :: rs)

/-- The outcome of a write, as the other side reads it. -/
def outcomeOf (e : Option String) : Int × String :=
  match e with
  | some text => (1, text)
  | none => (0, "")

/-- An error has code 1, whatever its text. -/
theorem outcomeOf_zero_iff {e : Option String} : outcomeOf e = (0, "") ↔ e = none := by
  cases e with
  | none => exact iff_of_true rfl rfl
  | some text =>
    refine iff_of_false (fun h => ?_) (Option.some_ne_none text)
    have hcode : (1 : Int) = 0 := congrArg Prod.fst h
    omega

section Wire

variable {R : Proto WriteShardResponsePB} {typ : UInt8}

theorem unmarshal_responseFor (hR : R.RoundTrips) (e : Option String) :
    WriteShardResponse.unmarshalBinary R (R.encode (responseFor e).pb) = .ok (outcomeOf e) := by
  rw [WriteShardResponse.unmarshalBinary, hR _ rfl]
  cases e with
  | none => rfl
  | some text => rfl

theorem decodeLV_append {V : Type} {u : Bytes → Except String V} {buf : Bytes} {v : V}
    (hsmall : buf.length < maxMessageSize) (hv : u buf = .ok v) (rest : Bytes) :
    decodeLV u (beBytes 8 buf.length ++ (buf ++ rest)) = .ok v rest := by
  rw [decodeLV, bind_ok (readLV_append hsmall rest), hv]
  rfl

theorem decodeTLV_encode {V : Type} {u : Bytes → Except String V} {buf : Bytes} {v : V}
    (hsmall : buf.length < maxMessageSize) (hv : u buf = .ok v) (rest : Bytes) :
    decodeTLV u (encode typ buf ++ rest) = .ok (typ, v) rest := by
  rw [encode_eq, List.cons_append, List.append_assoc, decodeTLV, bind_ok (readType_cons _ _),
    bind_ok (decodeLV_append hsmall hv rest)]
  rfl

/-- **The responses are read back, in order.** -/
theorem decodeTLVs_responses {Itr : Type} (hR : R.RoundTrips) {es : List (Option String)}
    (hsmall : ∀ e ∈ es, (R.encode (responseFor e).pb).length < maxMessageSize) :
    decodeTLVs (WriteShardResponse.unmarshalBinary R) es.length
        (responses R typ (es.map fun e => (Reply.writeShard (responseFor e) : Reply Itr)))
      = .ok (es.map fun e => (typ, outcomeOf e)) [] := by
  induction es with
  | nil => rfl
  | cons e es ih =>
    obtain ⟨hfirst, hrest⟩ := List.forall_mem_cons.mp hsmall
    have hbytes : responses R typ ((e :: es).map fun e => (Reply.writeShard (responseFor e) : Reply Itr))
        = encode typ (R.encode (responseFor e).pb)
          ++ responses R typ (es.map fun e => (Reply.writeShard (responseFor e) : Reply Itr)) := rfl
    rw [hbytes, List.length_cons, decodeTLVs,
      bind_ok (decodeTLV_encode hfirst (unmarshal_responseFor hR e) _), bind_ok (ih hrest)]
    rfl

end Wire

/-! ## From one side to the other -/

section Remote

variable {P IC O S Itr σ : Type} {b : Service P IC O S Itr σ} {t : MessageTypes}
  {execute : Bytes → σ → Option String × σ} {R : Proto WriteShardResponsePB}

/-- The frame holds the request that the calls build, one of which sets the shard. -/
def Sends (b : Service P IC O S Itr σ) (t : MessageTypes) (calls : List (Call P)) (f : Frame) :
    Prop :=
  (∃ id, Call.setShardID id ∈ calls) ∧ f.typ = t.writeShardRequest ∧
    ∃ w, calls.foldlM (Call.run b.points) WriteShardRequest.fresh = some w ∧
      w.marshalBinary b.wire = .ok f.payload

/-- The write that the calls ask for. -/
def TSDBStore.writeOf (store : TSDBStore P IC σ) (a : Written P) : σ → Option String × σ :=
  store.write (a.shardID.getD 0) a.database a.retentionPolicy a.points

/-- The points are in the shard that the request names, which has been made if it was missing. -/
def TSDBStore.Takes (store : TSDBStore P IC σ) (a : Written P) (st : σ) : Prop :=
  let id := a.shardID.getD 0
  let w := store.writeToShard id a.points st
  w.1 = none ∨
    w.1 = some .shardNotFound ∧ a.database ≠ "" ∧ a.retentionPolicy ≠ "" ∧
      (store.createShard a.database a.retentionPolicy id w.2).1 = none ∧
      (store.writeToShard id a.points
        (store.createShard a.database a.retentionPolicy id w.2).2).1 = none

/-- The shard is missing, and the request does not say where to make it. -/
def TSDBStore.Drops (store : TSDBStore P IC σ) (a : Written P) (st : σ) : Prop :=
  (store.writeToShard (a.shardID.getD 0) a.points st).1 = some .shardNotFound ∧
    (a.database = "" ∨ a.retentionPolicy = "")

/-- **What no error means**: the points are in the shard, or the write has been dropped. -/
theorem TSDBStore.writeOf_none_iff (store : TSDBStore P IC σ) (a : Written P) (st : σ) :
    (store.writeOf a st).1 = none ↔ store.Takes a st ∨ store.Drops a st := by
  rw [TSDBStore.writeOf, TSDBStore.write, TSDBStore.Takes, TSDBStore.Drops]
  rcases store.writeToShard (a.shardID.getD 0) a.points st with ⟨_ | _ | text, st'⟩
  · exact iff_of_true rfl (.inl (.inl rfl))
  · dsimp only
    by_cases hnone : a.database = "" ∨ a.retentionPolicy = ""
    · rw [if_pos hnone]
      exact iff_of_true rfl (.inr ⟨rfl, hnone⟩)
    · rw [if_neg hnone]
      obtain ⟨hdatabase, hpolicy⟩ := not_or.mp hnone
      rcases store.createShard a.database a.retentionPolicy (a.shardID.getD 0) st' with ⟨_ | e, st₁⟩
      · dsimp only
        rcases store.writeToShard (a.shardID.getD 0) a.points st₁ with ⟨_ | e, st₂⟩
        · exact iff_of_true rfl (.inl (.inr ⟨rfl, hdatabase, hpolicy, rfl, rfl⟩))
        · simp [hdatabase, hpolicy]
      · simp [hdatabase, hpolicy]
  · simp

/-- **What was built is what is asked.** -/
theorem asks_of_sends (hW : b.wire.writeShardRequest.RoundTrips) (hP : b.points.RoundTrips)
    {calls : List (Call P)} {f : Frame} (h : Sends b t calls f) :
    Asks b t execute f (b.store.writeOf (written calls)) := by
  obtain ⟨⟨id, hid⟩, htyp, w, hw, hpayload⟩ := h
  obtain ⟨w', hw', hholds⟩ := holds_fresh.calls hP calls
  cases hw.symm.trans hw'
  have hset : Message.initialized w.pb = true := by
    show w.pb.shardID.isSome = true
    rw [hholds.shardID]
    exact isSome_shardID_of_mem calls _ (.inr hid)
  obtain ⟨buf, hbuf, hdecode⟩ := hW.marshal w.pb hset
  cases hpayload.symm.trans hbuf
  have hreq : b.decodeWriteShard f.payload = .ok w := by
    rw [Service.decodeWriteShard, WriteShardRequest.unmarshalBinary, hdecode]
    rfl
  have hask : b.store.writeOf (written calls)
      = b.store.write w.shardID w.database w.retentionPolicy (written calls).points := by
    rw [TSDBStore.writeOf, WriteShardRequest.shardID, hholds.shardID, hholds.database,
      hholds.retentionPolicy]
    rfl
  rw [hask]
  exact .write htyp hreq hholds.points

/-- **Remote writes happen in order, and the sender reads the outcome of each.**  Who builds
    requests, writes them to a connection of the cluster service and reads as many responses has
    each request put to the store once, in order, and reads its outcome: code 0, or code 1 with the
    text of the error.  Nothing panics, and the loop ends with the connection.  But code 0 does not
    say that the points are stored: it is also the answer to a write that has been dropped, because
    its shard is missing and the request has no database or no policy. -/
theorem remote_writes_in_order (hW : b.wire.writeShardRequest.RoundTrips)
    (hP : b.points.RoundTrips) (hR : R.RoundTrips) {reqs : List (List (Call P))} {fs : List Frame}
    (hsends : List.Forall₂ (Sends b t) reqs fs) (store : σ) (typ : UInt8)
    (hsmall : ∀ e ∈ (answers (reqs.map fun calls => b.store.writeOf (written calls)) store).1,
      (R.encode (responseFor e).pb).length < maxMessageSize) {fuel : Nat} (hfuel : fs.length < fuel) :
    (∃ s, b.converse t execute fuel ⟨stream fs, [], store⟩ = .ok true s ∧ s.input = [] ∧
      s.store = (answers (reqs.map fun calls => b.store.writeOf (written calls)) store).2 ∧
      decodeTLVs (WriteShardResponse.unmarshalBinary R) reqs.length (responses R typ s.sent)
        = .ok ((answers (reqs.map fun calls => b.store.writeOf (written calls)) store).1.map
            fun e => (typ, outcomeOf e)) []) ∧
    ∀ a st, outcomeOf (b.store.writeOf a st).1 = (0, "") ↔ b.store.Takes a st ∨ b.store.Drops a st := by
  have hasks : List.Forall₂ (Asks b t execute) fs
      (reqs.map fun calls => b.store.writeOf (written calls)) := by
    refine List.forall₂_map_right_iff.mpr (hsends.flip.imp fun f calls h => ?_)
    exact asks_of_sends hW hP h
  refine ⟨⟨_, converse_stream hasks [] store hfuel, rfl, rfl, ?_⟩, fun a st => ?_⟩
  rotate_left
  · rw [outcomeOf_zero_iff, b.store.writeOf_none_iff]
  have hlen : ∀ (gs : List (σ → Option String × σ)) (st : σ), (answers gs st).1.length = gs.length := by
    intro gs
    induction gs with
    | nil => exact fun st => rfl
    | cons g gs ih => exact fun st => congrArg Nat.succ (ih _)
  have hcount := hlen (reqs.map fun calls => b.store.writeOf (written calls)) store
  rw [List.length_map] at hcount
  rw [← hcount, List.nil_append]
  exact decodeTLVs_responses hR hsmall

end Remote

section Fields

open Protobuf

/-- `rpc/internal/data.proto`, `WriteShardResponse`. -/
def WriteShardResponsePB.toFields (pb : WriteShardResponsePB) : List Field :=
  ofUints 1 (pb.code.toList.map ofInt32) ++ ofBlobs 2 (pb.message.toList.map utf8)

def WriteShardResponsePB.ofFields (fs : List Field) : Option WriteShardResponsePB := do
  let message ← texts (blobs 2 fs)
  some { code := ((uints 1 fs).map toInt32).getLast?, message := message.getLast? }

end Fields

/-- The format of `data.proto` for a response. -/
def responseProto : Proto WriteShardResponsePB :=
  .ofFields ⟨none, none⟩ WriteShardResponsePB.toFields WriteShardResponsePB.ofFields

theorem responseProto_roundTrips : responseProto.RoundTrips := Proto.ofFields_roundTrips fun pb => by
  have hcode : Protobuf.toInt32 ∘ Protobuf.ofInt32 = id := funext Protobuf.toInt32_ofInt32
  simp [WriteShardResponsePB.toFields, WriteShardResponsePB.ofFields, hcode]

/-- A store of shards with their points; shard 9 is broken. -/
def shardStore : TSDBStore Nat Unit (List (UInt64 × List Nat)) where
  writeToShard id points st :=
    if id = 9 then (some (.other "engine is closed"), st)
    else if st.any (fun x => x.1 = id) then
      (none, st.map fun x => if x.1 = id then (id, x.2 ++ points) else x)
    else (some .shardNotFound, st)
  createShard _ _ id st := (none, st ++ [(id, [])])
  shardIteratorCreator _ st := (none, st)

/-- A service over that store. -/
def takingService : Service Nat Unit Unit Unit Unit (List (UInt64 × List Nat)) where
  wire := dataProto
  points := unary
  options := voidCodec
  sources := voidCodec
  noOptions := ()
  noSources := ()
  store := shardStore
  iterators :=
    { createIterator := fun _ _ => .ok none
      fieldDimensions := fun _ _ => .ok (∅, ∅) }

/-- A write that makes its shard, one that does not say where to make it, and one to the shard that
    is broken. -/
def threeWrites : List (List (Call Nat)) :=
  [[.setShardID 7, .setDatabase "db", .setRetentionPolicy "rp", .addPoints [3]],
    [.setShardID 8, .addPoints [1]], [.setShardID 9, .addPoints [2]]]

/-- The same, on the wire. -/
def threeFrames : List Frame :=
  [⟨fourTypes.writeShardRequest, [8, 7, 18, 3, 0, 0, 0, 26, 2, 100, 98, 34, 2, 114, 112], by decide⟩,
    ⟨fourTypes.writeShardRequest, [8, 8, 18, 1, 0], by decide⟩,
    ⟨fourTypes.writeShardRequest, [8, 9, 18, 2, 0, 0], by decide⟩]

/-- The second write is answered like the first one, and is nowhere. -/
theorem remote_writes_three : ∃ s,
    takingService.converse fourTypes (fun _ st => (none, st)) 4 ⟨stream threeFrames, [], []⟩
        = .ok true s ∧
      s.store = [(7, [3])] ∧
      decodeTLVs (WriteShardResponse.unmarshalBinary responseProto) 3
          (responses responseProto 9 s.sent)
        = .ok [(9, (0, "")), (9, (0, "")), (9, (1, "write shard 9: engine is closed"))] [] := by
  have hsends : List.Forall₂ (Sends takingService fourTypes) threeWrites threeFrames := by
    refine .cons ⟨⟨7, List.mem_cons_self⟩, rfl, _, rfl, ?_⟩
      (.cons ⟨⟨8, List.mem_cons_self⟩, rfl, _, rfl, ?_⟩
        (.cons ⟨⟨9, List.mem_cons_self⟩, rfl, _, rfl, ?_⟩ .nil))
    · decide +kernel
    · decide +kernel
    · decide +kernel
  have hanswers : answers (threeWrites.map fun calls => takingService.store.writeOf (written calls)) []
      = ([none, none, some "write shard 9: engine is closed"], [(7, [3])]) := by decide +kernel
  obtain ⟨⟨s, hrun, -, hstore, hread⟩, -⟩ := remote_writes_in_order
    dataProto_roundTrips.writeShardRequest unary_roundTrips
    responseProto_roundTrips hsends [] 9 (by rw [hanswers]; decide +kernel) (Nat.lt_succ_self 3)
  rw [hanswers] at hstore hread
  exact ⟨s, hrun, hstore, hread⟩

end InfluxCluster.Cluster
