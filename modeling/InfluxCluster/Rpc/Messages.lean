/-
  The messages of the cluster service (`rpc/rpc.go`), and what is left of them on the other side.

  A message is translated into one of protobuf BY HAND, and back.  On the way the points of a write,
  the options of an iterator and the sources of a query become bytes, a set becomes a list in
  whatever order Go goes over a map, and an error becomes its text, or is left out.

  How the bytes look is a parameter (`Proto`, `BinaryCodec`), and what is assumed of it is that it
  reads back what it has written.  The format of `data.proto` does (`dataProto_roundTrips`).  Of
  proto2 one rule matters: a message whose required fields are not all set is not written.  Only
  `WriteShardRequest` can be such a message, before `SetShardID`.

  A value that is read is a RECEIVER, and reading changes it: an error that the message does not have
  stays what it was.  So the round trip (`messages_round_trip`) is into a fresh value.
-/
import InfluxCluster.Lib.Buckets
import InfluxCluster.Lib.Protobuf
import Mathlib.Data.Finset.Insert

namespace InfluxCluster.Rpc

open InfluxCluster.Lib

/-! ## Protobuf, and the codecs of the embedded packages -/

/-- What a call returns other than nil. -/
inductive RpcErr
  /-- A required field of the message is not set. -/
  | requiredNotSet
  | proto (text : String)
  /-- An error of an embedded codec. -/
  | codec (text : String)
  deriving DecidableEq

/-- A message of proto2. -/
class Message (M : Type) where
  /-- All required fields are set. -/
  initialized : M → Bool

/-- Protobuf, for one type of message.  `decode` gives what the message has become, and the error. -/
structure Proto (M : Type) where
  encode : M → Bytes
  decode : Bytes → M × Option String

/-- `proto.Marshal`. -/
def Proto.marshal {M : Type} [Message M] (W : Proto M) (pb : M) : Except RpcErr Bytes :=
  if Message.initialized pb then .ok (W.encode pb) else .error .requiredNotSet

/-- A message that can be written is read back. -/
def Proto.RoundTrips {M : Type} [Message M] (W : Proto M) : Prop :=
  ∀ pb, Message.initialized pb = true → W.decode (W.encode pb) = (pb, none)

/-- `MarshalBinary` and `UnmarshalBinary` of a type of an embedded package. -/
structure BinaryCodec (α : Type) where
  marshalBinary : α → Except String Bytes
  unmarshalBinary : Bytes → Except String α

/-- Every value can be written, and is read back. -/
def BinaryCodec.RoundTrips {α : Type} (C : BinaryCodec α) : Prop :=
  ∀ a, ∃ b, C.marshalBinary a = .ok b ∧ C.unmarshalBinary b = .ok a

/-! ## The messages -/

/-- `internal.WriteShardRequest`. -/
structure WriteShardRequestPB where
  shardID : Option UInt64
  points : List Bytes
  database : Option String
  retentionPolicy : Option String
  deriving DecidableEq

/-- `internal.CreateIteratorRequest`. -/
structure CreateIteratorRequestPB where
  shardIDs : List UInt64
  opt : Option Bytes
  deriving DecidableEq

/-- `internal.CreateIteratorResponse`. -/
structure CreateIteratorResponsePB where
  err : Option String
  deriving DecidableEq

/-- `internal.FieldDimensionsRequest`. -/
structure FieldDimensionsRequestPB where
  shardIDs : List UInt64
  sources : Option Bytes
  deriving DecidableEq

/-- `internal.FieldDimensionsResponse`. -/
structure FieldDimensionsResponsePB where
  fields : List String
  dimensions : List String
  err : Option String
  deriving DecidableEq

instance : Message WriteShardRequestPB := ⟨fun pb => pb.shardID.isSome⟩
instance : Message CreateIteratorRequestPB := ⟨fun pb => pb.opt.isSome⟩
instance : Message CreateIteratorResponsePB := ⟨fun _ => true⟩
instance : Message FieldDimensionsRequestPB := ⟨fun pb => pb.sources.isSome⟩
instance : Message FieldDimensionsResponsePB := ⟨fun _ => true⟩

/-- Protobuf, for the messages. -/
structure Wire where
  writeShardRequest : Proto WriteShardRequestPB
  createIteratorRequest : Proto CreateIteratorRequestPB
  createIteratorResponse : Proto CreateIteratorResponsePB
  fieldDimensionsRequest : Proto FieldDimensionsRequestPB
  fieldDimensionsResponse : Proto FieldDimensionsResponsePB

structure Wire.RoundTrips (W : Wire) : Prop where
  writeShardRequest : W.writeShardRequest.RoundTrips
  createIteratorRequest : W.createIteratorRequest.RoundTrips
  createIteratorResponse : W.createIteratorResponse.RoundTrips
  fieldDimensionsRequest : W.fieldDimensionsRequest.RoundTrips
  fieldDimensionsResponse : W.fieldDimensionsResponse.RoundTrips

/-! ## `WriteShardRequest` -/

/-- `WriteShardRequest`. -/
structure WriteShardRequest where
  pb : WriteShardRequestPB
  deriving DecidableEq

namespace WriteShardRequest

variable {P : Type}

/-- `&WriteShardRequest{}`. -/
def fresh : WriteShardRequest := ⟨⟨none, [], none, none⟩⟩

/-- `SetShardID`. -/
def setShardID (w : WriteShardRequest) (id : UInt64) : WriteShardRequest :=
  ⟨{ w.pb with shardID := some id }⟩

/-- `SetDatabase`. -/
def setDatabase (w : WriteShardRequest) (db : String) : WriteShardRequest :=
  ⟨{ w.pb with database := some db }⟩

/-- `SetRetentionPolicy`. -/
def setRetentionPolicy (w : WriteShardRequest) (rp : String) : WriteShardRequest :=
  ⟨{ w.pb with retentionPolicy := some rp }⟩

/-- `ShardID`. -/
def shardID (w : WriteShardRequest) : UInt64 := w.pb.shardID.getD 0

/-- `Database`. -/
def database (w : WriteShardRequest) : String := w.pb.database.getD ""

/-- `RetentionPolicy`. -/
def retentionPolicy (w : WriteShardRequest) : String := w.pb.retentionPolicy.getD ""

/-- `AddPoints`; `none` is the panic for a point that cannot be written. -/
def addPoints (C : BinaryCodec P) (w : WriteShardRequest) : List P → Option WriteShardRequest
  | [] => some w
  | p :: points =>
    match C.marshalBinary p with
    | .error _ => none
    | .ok b => addPoints C ⟨{ w.pb with points := w.pb.points ++ [b] }⟩ points

/-- `AddPoint`, where `made` is what `models.NewPoint` has made of the arguments; its error is
    dropped. -/
def addPoint (C : BinaryCodec P) (w : WriteShardRequest) (made : Except String P) :
    Option WriteShardRequest :=
  match made with
  | .error _ => some w
  | .ok p => addPoints C w [p]

/-- `Points`; `none` is the panic for bytes that are not a point. -/
def points (C : BinaryCodec P) (w : WriteShardRequest) : Option (List P) :=
  w.pb.points.mapM fun b =>
    match C.unmarshalBinary b with
    | .error _ => none
    | .ok p => some p

/-- `MarshalBinary`. -/
def marshalBinary (W : Wire) (w : WriteShardRequest) : Except RpcErr Bytes :=
  W.writeShardRequest.marshal w.pb

/-- `UnmarshalBinary`: what the receiver has become, and the error.  The message is reset first. -/
def unmarshalBinary (W : Wire) (_ : WriteShardRequest) (buf : Bytes) :
    WriteShardRequest × Option RpcErr :=
  match W.writeShardRequest.decode buf with
  | (pb, err) => (⟨pb⟩, err.map .proto)

end WriteShardRequest

/-- A call that a request is built with. -/
inductive Call (P : Type)
  | setShardID (id : UInt64)
  | setDatabase (db : String)
  | setRetentionPolicy (rp : String)
  | addPoints (points : List P)
  | addPoint (made : Except String P)

def Call.run {P : Type} (C : BinaryCodec P) (w : WriteShardRequest) :
    Call P → Option WriteShardRequest
  | .setShardID id => some (w.setShardID id)
  | .setDatabase db => some (w.setDatabase db)
  | .setRetentionPolicy rp => some (w.setRetentionPolicy rp)
  | .addPoints points => w.addPoints C points
  | .addPoint made => w.addPoint C made

/-! ## Requests that name shards -/

/-- A message that has the identifiers of shards, and bytes. -/
structure Shards (M : Type) [Message M] where
  make : List UInt64 → Bytes → M
  getShardIDs : M → List UInt64
  getBytes : M → Bytes
  initialized : ∀ shardIDs buf, Message.initialized (make shardIDs buf) = true
  getShardIDs_make : ∀ shardIDs buf, getShardIDs (make shardIDs buf) = shardIDs
  getBytes_make : ∀ shardIDs buf, getBytes (make shardIDs buf) = buf

section Requests

variable {M α : Type} [Message M]

/-- `MarshalBinary` of a request that is the identifiers of shards, and a value of an embedded
    package. -/
def marshalShards (W : Proto M) (K : Shards M) (C : BinaryCodec α) (shardIDs : List UInt64) (a : α) :
    Except RpcErr Bytes :=
  match C.marshalBinary a with
  | .error text => .error (.codec text)
  | .ok buf => W.marshal (K.make shardIDs buf)

/-- Its `UnmarshalBinary`: what has become of the receiver's parts, and the error. -/
def unmarshalShards (W : Proto M) (K : Shards M) (C : BinaryCodec α) (shardIDs : List UInt64) (a : α)
    (data : Bytes) : (List UInt64 × α) × Option RpcErr :=
  match W.decode data with
  | (_, some text) => ((shardIDs, a), some (.proto text))
  | (pb, none) =>
    match C.unmarshalBinary (K.getBytes pb) with
    | .error text => ((K.getShardIDs pb, a), some (.codec text))
    | .ok a' => ((K.getShardIDs pb, a'), none)

end Requests

/-- `CreateIteratorRequest`. -/
structure CreateIteratorRequest (O : Type) where
  shardIDs : List UInt64
  opt : O
  deriving DecidableEq

namespace CreateIteratorRequest

/-- The identifiers and the options. -/
def message : Shards CreateIteratorRequestPB where
  make shardIDs buf := { shardIDs := shardIDs, opt := some buf }
  getShardIDs pb := pb.shardIDs
  getBytes pb := pb.opt.getD []
  initialized _ _ := rfl
  getShardIDs_make _ _ := rfl
  getBytes_make _ _ := rfl

variable {O : Type} (W : Wire) (C : BinaryCodec O)

/-- `MarshalBinary`. -/
def marshalBinary (r : CreateIteratorRequest O) : Except RpcErr Bytes :=
  marshalShards W.createIteratorRequest message C r.shardIDs r.opt

/-- `UnmarshalBinary`. -/
def unmarshalBinary (r : CreateIteratorRequest O) (data : Bytes) :
    CreateIteratorRequest O × Option RpcErr :=
  match unmarshalShards W.createIteratorRequest message C r.shardIDs r.opt data with
  | ((shardIDs, opt), err) => ({ shardIDs := shardIDs, opt := opt }, err)

end CreateIteratorRequest

/-- `FieldDimensionsRequest`. -/
structure FieldDimensionsRequest (S : Type) where
  shardIDs : List UInt64
  sources : S
  deriving DecidableEq

namespace FieldDimensionsRequest

/-- The identifiers and the sources. -/
def message : Shards FieldDimensionsRequestPB where
  make shardIDs buf := { shardIDs := shardIDs, sources := some buf }
  getShardIDs pb := pb.shardIDs
  getBytes pb := pb.sources.getD []
  initialized _ _ := rfl
  getShardIDs_make _ _ := rfl
  getBytes_make _ _ := rfl

variable {S : Type} (W : Wire) (C : BinaryCodec S)

/-- `MarshalBinary`. -/
def marshalBinary (r : FieldDimensionsRequest S) : Except RpcErr Bytes :=
  marshalShards W.fieldDimensionsRequest message C r.shardIDs r.sources

/-- `UnmarshalBinary`. -/
def unmarshalBinary (r : FieldDimensionsRequest S) (data : Bytes) :
    FieldDimensionsRequest S × Option RpcErr :=
  match unmarshalShards W.fieldDimensionsRequest message C r.shardIDs r.sources data with
  | ((shardIDs, sources), err) => ({ shardIDs := shardIDs, sources := sources }, err)

end FieldDimensionsRequest

/-! ## Responses -/

/-- The error of the receiver: that of the message, if it has one. -/
def readErr (pb old : Option String) : Option String :=
  match pb with
  | none => old
  | some text => some text

/-- `CreateIteratorResponse`; of an error there is its text. -/
structure CreateIteratorResponse where
  err : Option String
  deriving DecidableEq

namespace CreateIteratorResponse

variable (W : Wire)

/-- `MarshalBinary`. -/
def marshalBinary (r : CreateIteratorResponse) : Except RpcErr Bytes :=
  W.createIteratorResponse.marshal { err := r.err }

/-- `UnmarshalBinary`. -/
def unmarshalBinary (r : CreateIteratorResponse) (data : Bytes) :
    CreateIteratorResponse × Option RpcErr :=
  match W.createIteratorResponse.decode data with
  | (_, some text) => (r, some (.proto text))
  | (pb, none) => ({ err := readErr pb.err r.err }, none)

end CreateIteratorResponse

/-- `FieldDimensionsResponse`. -/
structure FieldDimensionsResponse where
  fields : Finset String
  dimensions : Finset String
  err : Option String
  deriving DecidableEq

namespace FieldDimensionsResponse

variable (W : Wire)

/-- `MarshalBinary`; `orderF` and `orderD` are the orders in which Go goes over the two maps. -/
def marshalBinary (orderF orderD : Finset String → List String) (r : FieldDimensionsResponse) :
    Except RpcErr Bytes :=
  W.fieldDimensionsResponse.marshal
    { fields := orderF r.fields, dimensions := orderD r.dimensions, err := r.err }

/-- A map that has got the keys, one after the other. -/
def keySet (keys : List String) : Finset String := keys.foldl (fun set k => insert k set) ∅

/-- `UnmarshalBinary`. -/
def unmarshalBinary (r : FieldDimensionsResponse) (data : Bytes) :
    FieldDimensionsResponse × Option RpcErr :=
  match W.fieldDimensionsResponse.decode data with
  | (_, some text) => (r, some (.proto text))
  | (pb, none) =>
    ({ fields := keySet pb.fields
       dimensions := keySet pb.dimensions
       err := readErr pb.err r.err }, none)

end FieldDimensionsResponse

/-! ## Requests to write, as they were built -/

/-- What the calls ask for. -/
structure Written (P : Type) where
  shardID : Option UInt64
  database : String
  retentionPolicy : String
  points : List P

/-- What a call asks for. -/
def Written.add {P : Type} (a : Written P) : Call P → Written P
  | .setShardID id => { a with shardID := some id }
  | .setDatabase db => { a with database := db }
  | .setRetentionPolicy rp => { a with retentionPolicy := rp }
  | .addPoints points => { a with points := a.points ++ points }
  | .addPoint (.error _) => a
  | .addPoint (.ok p) => { a with points := a.points ++ [p] }

/-- What a list of calls asks for. -/
def written {P : Type} (calls : List (Call P)) : Written P :=
  calls.foldl Written.add ⟨none, "", "", []⟩

section Writes

variable {P : Type} {C : BinaryCodec P} {w : WriteShardRequest} {a : Written P}

/-- **The request has what was asked for.** -/
structure Holds (C : BinaryCodec P) (w : WriteShardRequest) (a : Written P) : Prop where
  shardID : w.pb.shardID = a.shardID
  database : w.database = a.database
  retentionPolicy : w.retentionPolicy = a.retentionPolicy
  points : w.points C = some a.points

theorem holds_fresh : Holds C WriteShardRequest.fresh ⟨none, "", "", []⟩ := ⟨rfl, rfl, rfl, rfl⟩

/-- One more point. -/
theorem points_append {b : Bytes} {p : P} {points : List P} (hb : C.unmarshalBinary b = .ok p)
    (h : w.points C = some points) :
    (⟨{ w.pb with points := w.pb.points ++ [b] }⟩ : WriteShardRequest).points C
      = some (points ++ [p]) := by
  rw [WriteShardRequest.points] at h ⊢
  rw [List.mapM_append, h]
  show (do let ps ← List.mapM _ [b]; some (points ++ ps)) = _
  rw [List.mapM_cons, hb]
  rfl

/-- Points are marshalled one by one. -/
theorem Holds.addPoints (hC : C.RoundTrips) (points : List P) :
    ∀ {w : WriteShardRequest} {a : Written P}, Holds C w a →
      ∃ w', w.addPoints C points = some w' ∧ Holds C w' { a with points := a.points ++ points } := by
  induction points with
  | nil =>
    intro w a h
    refine ⟨w, rfl, ?_⟩
    rw [List.append_nil]
    exact h
  | cons p points ih =>
    intro w a h
    obtain ⟨b, hb, hp⟩ := hC p
    have hone : Holds C ⟨{ w.pb with points := w.pb.points ++ [b] }⟩
        { a with points := a.points ++ [p] } :=
      ⟨h.shardID, h.database, h.retentionPolicy, points_append hp h.points⟩
    obtain ⟨w', hrun, hw'⟩ := ih hone
    refine ⟨w', ?_, ?_⟩
    · rw [WriteShardRequest.addPoints, hb]
      exact hrun
    · rw [List.append_assoc] at hw'
      exact hw'

/-- One call of a setter. -/
theorem Holds.call (hC : C.RoundTrips) (h : Holds C w a) (call : Call P) :
    ∃ w', call.run C w = some w' ∧ Holds C w' (a.add call) := by
  cases call with
  | setShardID id => exact ⟨_, rfl, rfl, h.database, h.retentionPolicy, h.points⟩
  | setDatabase db => exact ⟨_, rfl, h.shardID, rfl, h.retentionPolicy, h.points⟩
  | setRetentionPolicy rp => exact ⟨_, rfl, h.shardID, h.database, rfl, h.points⟩
  | addPoints points => exact h.addPoints hC points
  | addPoint made =>
    cases made with
    | error text => exact ⟨w, rfl, h⟩
    | ok p => exact h.addPoints hC [p]

/-- The calls that build a request. -/
theorem Holds.calls (hC : C.RoundTrips) (calls : List (Call P)) :
    ∀ {w : WriteShardRequest} {a : Written P}, Holds C w a →
      ∃ w', calls.foldlM (Call.run C) w = some w' ∧ Holds C w' (calls.foldl Written.add a) := by
  induction calls with
  | nil => exact fun {w} {_} h => ⟨w, rfl, h⟩
  | cons call calls ih =>
    intro w a h
    obtain ⟨w₁, hcall, h₁⟩ := h.call hC call
    obtain ⟨w', hrest, h'⟩ := ih h₁
    refine ⟨w', ?_, h'⟩
    rw [List.foldlM_cons, hcall]
    exact hrest

/-- Once the shard is set, it stays set. -/
theorem isSome_shardID_add (call : Call P) (h : a.shardID.isSome) : (a.add call).shardID.isSome := by
  rcases call with _ | _ | _ | _ | _ | _
  · rfl
  all_goals exact h

theorem isSome_shardID_of_mem {id : UInt64} (calls : List (Call P)) : ∀ a : Written P,
    a.shardID.isSome ∨ Call.setShardID id ∈ calls →
    (calls.foldl Written.add a).shardID.isSome := by
  induction calls with
  | nil => exact fun a h => h.resolve_right List.not_mem_nil
  | cons call calls ih =>
    intro a h
    refine ih (a.add call) ?_
    rcases h with hset | hmem
    · exact .inl (isSome_shardID_add call hset)
    · rcases List.mem_cons.mp hmem with rfl | hlater
      · exact .inl rfl
      · exact .inr hlater

end Writes

/-! ## The round trips -/

section RoundTrips

/-- A message with its required fields is read back. -/
theorem Proto.RoundTrips.marshal {M : Type} [Message M] {W : Proto M} (hW : W.RoundTrips) (pb : M)
    (h : Message.initialized pb = true) :
    ∃ b, W.marshal pb = .ok b ∧ W.decode b = (pb, none) :=
  ⟨W.encode pb, if_pos h, hW pb h⟩

/-- **The value is written, and read back** into the receiver. -/
def RoundTrip {α : Type} (marshalBinary : α → Except RpcErr Bytes)
    (unmarshalBinary : α → Bytes → α × Option RpcErr) (fresh a : α) : Prop :=
  ∃ b, marshalBinary a = .ok b ∧ unmarshalBinary fresh b = (a, none)

/-- The two requests with a list of shards. -/
theorem shards_roundTrip {M α : Type} [Message M] {W : Proto M} (hW : W.RoundTrips) (K : Shards M)
    {C : BinaryCodec α} (hC : C.RoundTrips) (shardIDs shardIDs₀ : List UInt64) (a a₀ : α) :
    ∃ b, marshalShards W K C shardIDs a = .ok b ∧
      unmarshalShards W K C shardIDs₀ a₀ b = ((shardIDs, a), none) := by
  obtain ⟨buf, hbuf, ha⟩ := hC a
  obtain ⟨b, hb, hdecode⟩ := hW.marshal _ (K.initialized shardIDs buf)
  refine ⟨b, ?_, ?_⟩
  · rw [marshalShards, hbuf]
    exact hb
  · rw [unmarshalShards, hdecode]
    dsimp only
    rw [K.getBytes_make, ha]
    dsimp only
    rw [K.getShardIDs_make]

theorem readErr_fresh (err : Option String) : readErr err none = err := by
  cases err <;> rfl

theorem mem_keySet (keys : List String) {k : String} :
    k ∈ FieldDimensionsResponse.keySet keys ↔ k ∈ keys := by
  have hadd : ∀ (set : Finset String) (k' : String), k ∈ insert k' set ↔ k ∈ set ∨ k' = k := by
    intro set k'
    rw [Finset.mem_insert, or_comm, eq_comm]
  rw [FieldDimensionsResponse.keySet, foldl_has_iff (k ∈ ·) hadd, exists_eq_right]
  exact or_iff_right (Finset.notMem_empty k)

/-- A set is what it was, whatever the order of its keys. -/
theorem keySet_order {order : Finset String → List String}
    (horder : ∀ set, (order set : Multiset String) = set.val) (set : Finset String) :
    FieldDimensionsResponse.keySet (order set) = set := by
  ext k
  rw [mem_keySet, ← Multiset.mem_coe, horder, Finset.mem_val]

variable {P O S : Type} {W : Wire} {pointCodec : BinaryCodec P} {optCodec : BinaryCodec O}
  {sourcesCodec : BinaryCodec S} {orderF orderD : Finset String → List String}

/-- **The messages round-trip**, into a fresh value.  A request to write that any calls have built,
    one of them `SetShardID`, comes back with the shard, the database, the policy and the points, in
    their order, that the calls have asked for; the others come back as they were, the sets whatever
    the order of their maps. -/
theorem messages_round_trip (hW : W.RoundTrips) (hpoint : pointCodec.RoundTrips)
    (hopt : optCodec.RoundTrips) (hsources : sourcesCodec.RoundTrips)
    (hF : ∀ set, (orderF set : Multiset String) = set.val)
    (hD : ∀ set, (orderD set : Multiset String) = set.val) :
    (∀ (calls : List (Call P)) (id : UInt64), Call.setShardID id ∈ calls →
      ∃ w, calls.foldlM (Call.run pointCodec) WriteShardRequest.fresh = some w ∧
        RoundTrip (WriteShardRequest.marshalBinary W) (WriteShardRequest.unmarshalBinary W)
          WriteShardRequest.fresh w ∧
        some w.shardID = (written calls).shardID ∧ w.database = (written calls).database ∧
        w.retentionPolicy = (written calls).retentionPolicy ∧
        w.points pointCodec = some (written calls).points) ∧
    (∀ (opt : O) (r : CreateIteratorRequest O),
      RoundTrip (CreateIteratorRequest.marshalBinary W optCodec)
        (CreateIteratorRequest.unmarshalBinary W optCodec) ⟨[], opt⟩ r) ∧
    (∀ r, RoundTrip (CreateIteratorResponse.marshalBinary W)
      (CreateIteratorResponse.unmarshalBinary W) ⟨none⟩ r) ∧
    (∀ (sources : S) (r : FieldDimensionsRequest S),
      RoundTrip (FieldDimensionsRequest.marshalBinary W sourcesCodec)
        (FieldDimensionsRequest.unmarshalBinary W sourcesCodec) ⟨[], sources⟩ r) ∧
    ∀ r, RoundTrip (FieldDimensionsResponse.marshalBinary W orderF orderD)
      (FieldDimensionsResponse.unmarshalBinary W) ⟨∅, ∅, none⟩ r := by
  refine ⟨fun calls id hid => ?_, fun opt r => ?_, fun r => ?_, fun sources r => ?_, fun r => ?_⟩
  · obtain ⟨w, hrun, h⟩ := (holds_fresh (C := pointCodec)).calls hpoint calls
    have hset : (written calls).shardID.isSome := isSome_shardID_of_mem calls _ (.inr hid)
    obtain ⟨id', hid'⟩ := Option.isSome_iff_exists.mp hset
    have hpb : w.pb.shardID = some id' := h.shardID.trans hid'
    have hinit : Message.initialized w.pb = true := Option.isSome_iff_exists.mpr ⟨id', hpb⟩
    obtain ⟨b, hb, hdecode⟩ := hW.writeShardRequest.marshal w.pb hinit
    refine ⟨w, hrun, ⟨b, hb, ?_⟩, ?_, h.database, h.retentionPolicy, h.points⟩
    · rw [WriteShardRequest.unmarshalBinary, hdecode]
      rfl
    · rw [WriteShardRequest.shardID, hpb, hid']
      rfl
  · obtain ⟨b, hb, hread⟩ := shards_roundTrip hW.createIteratorRequest CreateIteratorRequest.message
      hopt r.shardIDs [] r.opt opt
    refine ⟨b, hb, ?_⟩
    rw [CreateIteratorRequest.unmarshalBinary, hread]
  · obtain ⟨b, hb, hdecode⟩ := hW.createIteratorResponse.marshal { err := r.err } rfl
    refine ⟨b, hb, ?_⟩
    rw [CreateIteratorResponse.unmarshalBinary, hdecode]
    dsimp only
    rw [readErr_fresh]
  · obtain ⟨b, hb, hread⟩ := shards_roundTrip hW.fieldDimensionsRequest
      FieldDimensionsRequest.message hsources r.shardIDs [] r.sources sources
    refine ⟨b, hb, ?_⟩
    rw [FieldDimensionsRequest.unmarshalBinary, hread]
  · obtain ⟨b, hb, hdecode⟩ := hW.fieldDimensionsResponse.marshal
      { fields := orderF r.fields, dimensions := orderD r.dimensions, err := r.err } rfl
    refine ⟨b, hb, ?_⟩
    rw [FieldDimensionsResponse.unmarshalBinary, hdecode]
    dsimp only
    rw [readErr_fresh, keySet_order hF, keySet_order hD]

/-- Into a receiver that is not fresh: a response without an error is read as the error that was
    there before. -/
theorem createIteratorResponse_keeps_err (hW : W.RoundTrips) (r : CreateIteratorResponse) :
    ∃ b, CreateIteratorResponse.marshalBinary W ⟨none⟩ = .ok b ∧
      CreateIteratorResponse.unmarshalBinary W r b = (r, none) := by
  obtain ⟨b, hb, hdecode⟩ := hW.createIteratorResponse.marshal { err := none } rfl
  refine ⟨b, hb, ?_⟩
  rw [CreateIteratorResponse.unmarshalBinary, hdecode]
  rfl

end RoundTrips

/-! ## The messages on the wire -/

/-- Protobuf for messages of these fields.  What cannot be split into fields is cut off; a message
    that can is read, whether its required fields are set or not. -/
def Proto.ofFields {M : Type} [Message M] (zero : M) (fields : M → List Protobuf.Field)
    (read : List Protobuf.Field → Option M) : Proto M where
  encode pb := Protobuf.encode (fields pb)
  decode b :=
    match (Protobuf.parse b).bind read with
    | none => (zero, some "unexpected EOF")
    | some pb =>
      (pb, if Message.initialized pb then none else some "proto: required field not set")

/-- **It reads back what it has written**, if the message is in its fields. -/
theorem Proto.ofFields_roundTrips {M : Type} [Message M] {zero : M}
    {fields : M → List Protobuf.Field} {read : List Protobuf.Field → Option M}
    (h : ∀ pb, read (fields pb) = some pb) : (Proto.ofFields zero fields read).RoundTrips := by
  intro pb hpb
  simp only [Proto.ofFields, Protobuf.parse_encode, Option.bind_some, h, hpb, if_true]

section Fields

open Protobuf

/-- `rpc/internal/data.proto`, `WriteShardRequest`. -/
def WriteShardRequestPB.toFields (pb : WriteShardRequestPB) : List Field :=
  ofUints 1 (pb.shardID.toList.map UInt64.toNat) ++ ofBlobs 2 pb.points ++
    ofBlobs 3 (pb.database.toList.map utf8) ++ ofBlobs 4 (pb.retentionPolicy.toList.map utf8)

def WriteShardRequestPB.ofFields (fs : List Field) : Option WriteShardRequestPB := do
  let database ← texts (blobs 3 fs)
  let retentionPolicy ← texts (blobs 4 fs)
  some
    { shardID := ((uints 1 fs).map UInt64.ofNat).getLast?
      points := blobs 2 fs
      database := database.getLast?
      retentionPolicy := retentionPolicy.getLast? }

/-- `CreateIteratorRequest`. -/
def CreateIteratorRequestPB.toFields (pb : CreateIteratorRequestPB) : List Field :=
  ofUints 1 (pb.shardIDs.map UInt64.toNat) ++ ofBlobs 2 pb.opt.toList

def CreateIteratorRequestPB.ofFields (fs : List Field) : Option CreateIteratorRequestPB :=
  some { shardIDs := (uints 1 fs).map UInt64.ofNat, opt := (blobs 2 fs).getLast? }

/-- `CreateIteratorResponse`. -/
def CreateIteratorResponsePB.toFields (pb : CreateIteratorResponsePB) : List Field :=
  ofBlobs 1 (pb.err.toList.map utf8)

def CreateIteratorResponsePB.ofFields (fs : List Field) : Option CreateIteratorResponsePB := do
  let err ← texts (blobs 1 fs)
  some { err := err.getLast? }

/-- `FieldDimensionsRequest`. -/
def FieldDimensionsRequestPB.toFields (pb : FieldDimensionsRequestPB) : List Field :=
  ofUints 1 (pb.shardIDs.map UInt64.toNat) ++ ofBlobs 2 pb.sources.toList

def FieldDimensionsRequestPB.ofFields (fs : List Field) : Option FieldDimensionsRequestPB :=
  some { shardIDs := (uints 1 fs).map UInt64.ofNat, sources := (blobs 2 fs).getLast? }

/-- `FieldDimensionsResponse`. -/
def FieldDimensionsResponsePB.toFields (pb : FieldDimensionsResponsePB) : List Field :=
  ofBlobs 1 (pb.fields.map utf8) ++ ofBlobs 2 (pb.dimensions.map utf8) ++
    ofBlobs 3 (pb.err.toList.map utf8)

def FieldDimensionsResponsePB.ofFields (fs : List Field) : Option FieldDimensionsResponsePB := do
  let fields ← texts (blobs 1 fs)
  let dimensions ← texts (blobs 2 fs)
  let err ← texts (blobs 3 fs)
  some { fields := fields, dimensions := dimensions, err := err.getLast? }

theorem ofNat_comp_toNat : UInt64.ofNat ∘ UInt64.toNat = id :=
  funext fun _ => UInt64.ofNat_toNat

end Fields

/-- **The format of `data.proto`.** -/
def dataProto : Wire where
  writeShardRequest :=
    .ofFields ⟨none, [], none, none⟩ WriteShardRequestPB.toFields WriteShardRequestPB.ofFields
  createIteratorRequest :=
    .ofFields ⟨[], none⟩ CreateIteratorRequestPB.toFields CreateIteratorRequestPB.ofFields
  createIteratorResponse :=
    .ofFields ⟨none⟩ CreateIteratorResponsePB.toFields CreateIteratorResponsePB.ofFields
  fieldDimensionsRequest :=
    .ofFields ⟨[], none⟩ FieldDimensionsRequestPB.toFields FieldDimensionsRequestPB.ofFields
  fieldDimensionsResponse :=
    .ofFields ⟨[], [], none⟩ FieldDimensionsResponsePB.toFields FieldDimensionsResponsePB.ofFields

/-- The messages of `data.proto`, field by field. -/
theorem dataProto_roundTrips : dataProto.RoundTrips where
  writeShardRequest := Proto.ofFields_roundTrips fun pb => by
    simp [WriteShardRequestPB.toFields, WriteShardRequestPB.ofFields, ofNat_comp_toNat]
  createIteratorRequest := Proto.ofFields_roundTrips fun pb => by
    simp [CreateIteratorRequestPB.toFields, CreateIteratorRequestPB.ofFields, ofNat_comp_toNat]
  createIteratorResponse := Proto.ofFields_roundTrips fun pb => by
    simp [CreateIteratorResponsePB.toFields, CreateIteratorResponsePB.ofFields]
  fieldDimensionsRequest := Proto.ofFields_roundTrips fun pb => by
    simp [FieldDimensionsRequestPB.toFields, FieldDimensionsRequestPB.ofFields, ofNat_comp_toNat]
  fieldDimensionsResponse := Proto.ofFields_roundTrips fun pb => by
    simp [FieldDimensionsResponsePB.toFields, FieldDimensionsResponsePB.ofFields]

example : dataProto.writeShardRequest.encode ⟨some 300, [[0, 0]], some "db", none⟩
    = [8, 172, 2, 18, 2, 0, 0, 26, 2, 100, 98] := by decide +kernel

/-- A number, as so many bytes. -/
def unary : BinaryCodec Nat where
  marshalBinary n := .ok (List.replicate n 0)
  unmarshalBinary b := .ok b.length

theorem unary_roundTrips : unary.RoundTrips := fun _ =>
  ⟨_, rfl, congrArg Except.ok List.length_replicate⟩

/-- Points before and after the shard is set, and an error without a text. -/
theorem messages_round_trip_unary :
    (∃ w, [Call.addPoints [3, 1], .setShardID 7, .addPoint (.ok 2), .setDatabase "db"].foldlM
        (Call.run unary) WriteShardRequest.fresh = some w ∧
      RoundTrip (WriteShardRequest.marshalBinary dataProto)
        (WriteShardRequest.unmarshalBinary dataProto) WriteShardRequest.fresh w ∧
      w.shardID = 7 ∧ w.points unary = some [3, 1, 2]) ∧
    RoundTrip (FieldDimensionsResponse.marshalBinary dataProto Finset.toList Finset.toList)
      (FieldDimensionsResponse.unmarshalBinary dataProto) ⟨∅, ∅, none⟩
      ⟨{"value", "idle"}, {"host"}, some ""⟩ := by
  obtain ⟨hwrite, -, -, -, hresponse⟩ := messages_round_trip dataProto_roundTrips
    unary_roundTrips unary_roundTrips unary_roundTrips Finset.coe_toList Finset.coe_toList
  obtain ⟨w, hrun, htrip, hid, -, -, hpoints⟩ := hwrite
    [.addPoints [3, 1], .setShardID 7, .addPoint (.ok 2), .setDatabase "db"] 7
    (List.mem_cons_of_mem _ List.mem_cons_self)
  exact ⟨⟨w, hrun, htrip, Option.some.inj hid, hpoints⟩, hresponse _⟩

end InfluxCluster.Rpc
