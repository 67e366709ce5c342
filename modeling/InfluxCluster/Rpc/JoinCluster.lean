/-
  `JoinClusterRequest` (`rpc/rpc.go`): a message that cannot be written.

  `MarshalBinary` has two faults, and one of them is always met.

  * The addresses of the meta nodes are assigned BY INDEX, `pb.MetaAddrs[i] = metaAddr`, to a
    slice that nobody has made.  With one address or more that panics (`fillMetaAddrs_eq`).
  * `ImportMetaData` is REQUIRED in `data.proto`, and nobody sets it.  So without addresses
    `proto.Marshal` returns an error.

  `UnmarshalBinary` is not to blame: of a message in which all fields are set it gives back the
  request (`unmarshalBinary_of_encode`).
-/
import InfluxCluster.Rpc.Messages

namespace InfluxCluster.Rpc

open InfluxCluster.Lib

/-- `internal.JoinClusterRequest`. -/
structure JoinClusterRequestPB where
  nodeID : Option UInt64
  nodeAddr : Option String
  metaAddrs : List String
  importMetaData : Option String
  deriving DecidableEq

instance : Message JoinClusterRequestPB :=
  ⟨fun pb => pb.nodeID.isSome && pb.nodeAddr.isSome && pb.importMetaData.isSome⟩

/-- `JoinClusterRequest`. -/
structure JoinClusterRequest where
  nodeID : UInt64
  nodeAddr : String
  metaAddrs : List String
  deriving DecidableEq

/-- `l[i] = a`; `none` is a panic, the index is out of range. -/
def assignAt {α : Type} (l : List α) (i : Nat) (a : α) : Option (List α) :=
  if i < l.length then some (l.set i a) else none

/-- The loop over the addresses; `pb.MetaAddrs` is nil before. -/
def fillMetaAddrs (metaAddrs : List String) : Option (List String) :=
  metaAddrs.zipIdx.foldlM (fun l a => assignAt l a.2 a.1) []

namespace JoinClusterRequest

variable (W : Proto JoinClusterRequestPB)

/-- `MarshalBinary`; `none` is a panic. -/
def marshalBinary (jc : JoinClusterRequest) : Option (Except RpcErr Bytes) := do
  let metaAddrs ← fillMetaAddrs jc.metaAddrs
  return W.marshal
    { nodeID := some jc.nodeID
      nodeAddr := some jc.nodeAddr
      metaAddrs := metaAddrs
      importMetaData := none }

/-- `UnmarshalBinary`: what the receiver has become, and the error. -/
def unmarshalBinary (jc : JoinClusterRequest) (data : Bytes) :
    JoinClusterRequest × Option RpcErr :=
  match W.decode data with
  | (_, some text) => (jc, some (.proto text))
  | (pb, none) =>
    ({ nodeID := pb.nodeID.getD 0
       nodeAddr := pb.nodeAddr.getD ""
       metaAddrs := pb.metaAddrs }, none)

/-- **The request is written, and read back** into any receiver. -/
def RoundTrips (jc : JoinClusterRequest) : Prop :=
  ∃ b, jc.marshalBinary W = some (.ok b) ∧ ∀ receiver : JoinClusterRequest,
    receiver.unmarshalBinary W b = (jc, none)

/-- The first assignment is out of range. -/
theorem fillMetaAddrs_eq (metaAddrs : List String) :
    fillMetaAddrs metaAddrs = if metaAddrs = [] then some [] else none := by
  cases metaAddrs with
  | nil => rfl
  | cons metaAddr metaAddrs => rfl

/-- **What `MarshalBinary` does**: it panics, or returns an error. -/
theorem marshalBinary_eq (jc : JoinClusterRequest) :
    jc.marshalBinary W = if jc.metaAddrs = [] then some (.error .requiredNotSet) else none := by
  unfold marshalBinary
  rw [fillMetaAddrs_eq]
  by_cases hnil : jc.metaAddrs = []
  · rw [if_pos hnil, if_pos hnil]
    rfl
  · rw [if_neg hnil, if_neg hnil]
    rfl

/-- A message with all required fields is read as the request. -/
theorem unmarshalBinary_of_encode (hW : W.RoundTrips) (jc receiver : JoinClusterRequest)
    (importMetaData : String) :
    receiver.unmarshalBinary W (W.encode
      { nodeID := some jc.nodeID
        nodeAddr := some jc.nodeAddr
        metaAddrs := jc.metaAddrs
        importMetaData := some importMetaData }) = (jc, none) := by
  rw [unmarshalBinary, hW _ rfl]
  rfl

/-- **No `JoinClusterRequest` makes the round trip.** -/
theorem never_round_trips (jc : JoinClusterRequest) : ¬ jc.RoundTrips W := by
  rintro ⟨b, hb, -⟩
  rw [marshalBinary_eq] at hb
  split at hb
  · cases hb
  · cases hb

end JoinClusterRequest

section Fields

open Protobuf

/-- `rpc/internal/data.proto`, `JoinClusterRequest`. -/
def JoinClusterRequestPB.toFields (pb : JoinClusterRequestPB) : List Field :=
  ofUints 1 (pb.nodeID.toList.map UInt64.toNat) ++ ofBlobs 2 (pb.nodeAddr.toList.map utf8) ++
    ofBlobs 3 (pb.metaAddrs.map utf8) ++ ofBlobs 4 (pb.importMetaData.toList.map utf8)

def JoinClusterRequestPB.ofFields (fs : List Field) : Option JoinClusterRequestPB := do
  let nodeAddr ← texts (blobs 2 fs)
  let metaAddrs ← texts (blobs 3 fs)
  let importMetaData ← texts (blobs 4 fs)
  some
    { nodeID := ((uints 1 fs).map UInt64.ofNat).getLast?
      nodeAddr := nodeAddr.getLast?
      metaAddrs := metaAddrs
      importMetaData := importMetaData.getLast? }

end Fields

/-- The format of `data.proto` for this message. -/
def joinProto : Proto JoinClusterRequestPB :=
  .ofFields ⟨none, none, [], none⟩ JoinClusterRequestPB.toFields JoinClusterRequestPB.ofFields

theorem joinProto_roundTrips : joinProto.RoundTrips := Proto.ofFields_roundTrips fun pb => by
  simp [JoinClusterRequestPB.toFields, JoinClusterRequestPB.ofFields, ofNat_comp_toNat]

/-- Node 1 joins with the address of a meta node, or without one, in the format of
    `data.proto`. -/
theorem join_request_is_not_written :
    joinProto.RoundTrips ∧
      JoinClusterRequest.marshalBinary joinProto ⟨1, "data0:8088", ["meta0:8091"]⟩ = none ∧
      JoinClusterRequest.marshalBinary joinProto ⟨1, "data0:8088", []⟩
        = some (.error .requiredNotSet) ∧
      ¬ JoinClusterRequest.RoundTrips joinProto ⟨1, "data0:8088", ["meta0:8091"]⟩ ∧
      ¬ JoinClusterRequest.RoundTrips joinProto ⟨1, "data0:8088", []⟩ := by
  refine ⟨joinProto_roundTrips, rfl, rfl, ?_, ?_⟩
  · rintro ⟨b, hb, -⟩
    cases hb
  · rintro ⟨b, hb, -⟩
    cases hb

end InfluxCluster.Rpc
