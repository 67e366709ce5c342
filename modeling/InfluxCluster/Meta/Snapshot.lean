/-
  Snapshots of the metadata: `Data.MarshalBinary` and `UnmarshalBinary` (`meta/data.go`), and what
  raft calls them for, `storeFSMSnapshot.Persist` and `storeFSM.Restore` (`meta/store_fsm.go`).

  MESSAGES are Go structures of pointers, as the generated code has them: a required or optional
  field is `Option`, an element of a repeated field can be nil.  Of proto2 one rule matters here: a
  message whose required fields are not all set, or that has a nil element, is not written
  (`Initialized`).  How the bytes look is a parameter (`Protobuf`), and so is the codec of the
  embedded data (`EmbeddedCodec`).

  `marshal` never sets `MaxNodeID`, which is REQUIRED.  So no state can be written to a snapshot at
  all (`persist_fails`); and of a snapshot written by someone else `unmarshal` drops the data nodes,
  the users and the largest identifier (`restore_forgets`).
-/
import InfluxCluster.Meta.Data
import InfluxCluster.Lib.Prog

namespace InfluxCluster.Meta

open InfluxCluster.Lib

/-! ## Messages -/

/-- `internal.NodeInfo`. -/
structure NodeInfoPB where
  id : Option UInt64
  host : Option String
  tcpHost : Option String
  pendingShardOwners : List UInt64
  deriving DecidableEq

/-- `internal.UserInfo`, as far as it is required. -/
structure UserInfoPB where
  name : Option String
  hash : Option String
  deriving DecidableEq

/-- `internal.ClusterData`; roles are neither written nor read. -/
structure ClusterData where
  data : Option Bytes
  maxNodeID : Option UInt64
  dataNodes : List (Option NodeInfoPB)
  metaNodes : List (Option NodeInfoPB)
  users : List (Option UserInfoPB)
  deriving DecidableEq

/-- The required fields are set. -/
def NodeInfoPB.initialized (pb : NodeInfoPB) : Bool := pb.id.isSome && pb.host.isSome

/-- The required fields are set. -/
def UserInfoPB.initialized (pb : UserInfoPB) : Bool := pb.name.isSome && pb.hash.isSome

/-- The required fields are set, in the message and in its elements, and no element is nil. -/
def ClusterData.initialized (pb : ClusterData) : Bool :=
  pb.data.isSome && pb.maxNodeID.isSome
    && pb.dataNodes.all (fun n => n.any NodeInfoPB.initialized)
    && pb.metaNodes.all (fun n => n.any NodeInfoPB.initialized)
    && pb.users.all (fun u => u.any UserInfoPB.initialized)

/-- Protobuf, for this message: the bytes of one that can be written, and the message that bytes
    are read as. -/
structure Protobuf where
  encode : ClusterData → Bytes
  decode : Bytes → Option ClusterData

/-- The codec of the embedded data.  `unmarshalBinary` gives what a zero `meta.Data` has become
    after the call: the error is not looked at. -/
structure EmbeddedCodec (X : Type) where
  marshalBinary : MetaData X → Option Bytes
  unmarshalBinary : Bytes → MetaData X

/-- What is written is read back. -/
def Protobuf.RoundTrips (P : Protobuf) : Prop :=
  ∀ pb : ClusterData, pb.initialized → P.decode (P.encode pb) = some pb

/-- The embedded data can be written, and is read back. -/
def EmbeddedCodec.RoundTrips {X : Type} (emb : EmbeddedCodec X) : Prop :=
  ∀ m, ∃ b, emb.marshalBinary m = some b ∧ emb.unmarshalBinary b = m

/-- `NodeInfo.marshal`: the pending owners are appended to as many zeros. -/
def NodeInfo.marshal (ni : NodeInfo) : NodeInfoPB :=
  { id := some ni.id
    host := some ni.host
    tcpHost := some ni.tcpHost
    pendingShardOwners :=
      List.replicate ni.pendingShardOwners.length 0 ++ ni.pendingShardOwners }

/-- `NodeInfo.unmarshal`; the getters of a nil message give zero values. -/
def NodeInfo.unmarshal (pb : Option NodeInfoPB) : NodeInfo :=
  { id := (pb.bind NodeInfoPB.id).getD 0
    host := (pb.bind NodeInfoPB.host).getD ""
    tcpHost := (pb.bind NodeInfoPB.tcpHost).getD ""
    pendingShardOwners := (pb.map NodeInfoPB.pendingShardOwners).getD [] }

section Codec

variable {X : Type} (P : Protobuf) (emb : EmbeddedCodec X)

/-- `proto.Marshal`. -/
def protoMarshal (pb : ClusterData) : Except Stop Bytes :=
  if pb.initialized then .ok (P.encode pb) else .error (.err .proto)

namespace Data

/-- `marshal`, where `m` is the embedded data. -/
def marshal (d : Data X) (m : MetaData X) : ClusterData :=
  { data := emb.marshalBinary m
    maxNodeID := none
    metaNodes := d.metaNodes.map fun n => some n.marshal
    dataNodes := d.dataNodes.map fun n => some n.marshal
    users := List.replicate d.users.length none }

/-- `MarshalBinary`. -/
def marshalBinary (d : Data X) : Except Stop Bytes :=
  match d.data with
  | none => .error .panicked
  | some m => protoMarshal P (d.marshal emb m)

/-- `unmarshal`. -/
def unmarshal (d : Data X) (pb : ClusterData) : Data X :=
  { d with
    data := some (emb.unmarshalBinary (pb.data.getD []))
    metaNodes := pb.metaNodes.map NodeInfo.unmarshal }

/-- `UnmarshalBinary`. -/
def unmarshalBinary (d : Data X) (buf : Bytes) : Except Stop (Data X) :=
  match P.decode buf with
  | none => .error (.err .proto)
  | some pb => .ok (d.unmarshal emb pb)

end Data

/-! ## `Persist` and `Restore` -/

/-- `raft.SnapshotSink`: what it was given, and the errors that its calls return. -/
structure Sink where
  written : Bytes
  closed : Bool
  cancelled : Bool
  writeErr : Option String
  closeErr : Option String
  deriving DecidableEq

/-- A new sink that works. -/
def Sink.new : Sink :=
  { written := [], closed := false, cancelled := false, writeErr := none, closeErr := none }

/-- `sink.Write(p)`. -/
def Sink.write (p : Bytes) : EStateM Stop Sink Unit := fun s =>
  match s.writeErr with
  | some text => .error (.err (.snapshot text)) s
  | none => .ok () { s with written := s.written ++ p }

/-- `sink.Close()`. -/
def Sink.close : EStateM Stop Sink Unit := fun s =>
  match s.closeErr with
  | some text => .error (.err (.snapshot text)) s
  | none => .ok () { s with closed := true }

/-- The function literal in `Persist`. -/
def persistData (d : Data X) : EStateM Stop Sink Unit := do
  match d.marshalBinary P emb with
  | .error e => throw e
  | .ok p =>
    Sink.write p
    Sink.close

/-- `storeFSMSnapshot.Persist`. -/
def persist (d : Data X) : EStateM Stop Sink Unit := fun sink =>
  match persistData P emb d sink with
  | .error (.err e) s => .error (.err e) { s with cancelled := true }
  | r => r

/-- `storeFSM.Restore`, where `r` is what `ReadAll` returns. -/
def restore (r : Except String Bytes) : EStateM Stop (Data X) Unit := fun data =>
  match r with
  | .error text => .error (.err (.snapshot text)) data
  | .ok b =>
    match Data.zero.unmarshalBinary P emb b with
    | .error e => .error e data
    | .ok data' => .ok () data'

/-! ## A snapshot cannot be taken -/

/-- `marshal` leaves a required field unset. -/
theorem marshal_not_initialized (d : Data X) (m : MetaData X) :
    (d.marshal emb m).initialized = false := by
  rw [ClusterData.initialized, Data.marshal]
  simp

/-- No metadata can be encoded: without the embedded data it panics, and otherwise protobuf
    refuses the message. -/
theorem marshalBinary_fails (d : Data X) :
    d.marshalBinary P emb = .error (if d.data.isSome then .err .proto else .panicked) := by
  rw [Data.marshalBinary]
  cases d.data with
  | none => rfl
  | some m =>
    have h : ¬ (d.marshal emb m).initialized = true := by
      rw [marshal_not_initialized emb d m]
      decide
    show protoMarshal P _ = _
    rw [protoMarshal, if_neg h]
    rfl

theorem persistData_fails (d : Data X) (sink : Sink) :
    persistData P emb d sink
      = .error (if d.data.isSome then .err .proto else .panicked) sink := by
  rw [persistData, marshalBinary_fails P emb d]
  rfl

/-- **`Persist` fails whatever the metadata and the sink**, and writes nothing. -/
theorem persist_fails (d : Data X) (sink : Sink) :
    ∃ e sink', persist P emb d sink = .error e sink' ∧ sink'.written = sink.written
      ∧ sink'.closed = sink.closed := by
  rw [persist, persistData_fails P emb d sink]
  cases d.data with
  | none => exact ⟨_, _, rfl, rfl, rfl⟩
  | some m => exact ⟨_, _, rfl, rfl, rfl⟩

/-- With the embedded data in place the error is that of protobuf, and the sink is cancelled. -/
theorem persist_error {d : Data X} (hd : d.data.isSome) (sink : Sink) :
    persist P emb d sink = .error (.err .proto) { sink with cancelled := true } := by
  rw [persist, persistData_fails P emb d sink, if_pos hd]

/-- **Restored metadata has no data nodes, no users and no identifiers given out**, whatever the
    snapshot holds. -/
theorem restore_forgets {r : Except String Bytes} {data data' : Data X}
    (h : restore P emb r data = .ok () data') :
    data'.dataNodes = [] ∧ data'.users = [] ∧ data'.maxNodeID = 0 ∧ data'.data.isSome := by
  rcases r with text | b
  · cases h
  · rw [restore, Data.unmarshalBinary] at h
    rcases hp : P.decode b with _ | pb
    · rw [hp] at h
      cases h
    · rw [hp] at h
      cases h
      exact ⟨rfl, rfl, rfl, rfl⟩

/-! ## The round trip -/

/-- A snapshot of the metadata is written, and restoring what was written gives the nodes, the
    users, the largest identifier and the embedded data back. -/
def RoundTrips (d : Data X) : Prop :=
  ∃ sink, persist P emb d Sink.new = .ok () sink ∧
    ∀ data, ∃ data', restore P emb (.ok sink.written) data = .ok () data' ∧
      data'.metaNodes = d.metaNodes ∧ data'.dataNodes = d.dataNodes ∧ data'.users = d.users ∧
      data'.maxNodeID = d.maxNodeID ∧ data'.data = d.data

/-- The metadata that the node operations lead to, from that of a new store. -/
inductive NodeReachable (rest : X) : Data X → Prop
  | new : NodeReachable rest (newStoreData rest)
  | createMetaNode {d d' : Data X} {host tcpHost : String} (h : NodeReachable rest d)
      (hd : d.createMetaNode host tcpHost = .ok d') : NodeReachable rest d'
  | createDataNode {d d' : Data X} {host tcpHost : String} (h : NodeReachable rest d)
      (hd : d.createDataNode host tcpHost = .ok d') : NodeReachable rest d'
  | deleteMetaNode {d d' : Data X} {id : UInt64} {now : Time} (h : NodeReachable rest d)
      (hd : d.deleteMetaNode id now = .ok d') : NodeReachable rest d'
  | deleteDataNode {d d' : Data X} {id : UInt64} (h : NodeReachable rest d)
      (hd : d.deleteDataNode id = .ok d') : NodeReachable rest d'
  | createUser {d d' : Data X} {name hash : String} {admin : Bool} (h : NodeReachable rest d)
      (hd : d.createUser name hash admin = .ok d') : NodeReachable rest d'

/-- The node operations keep the embedded data in place. -/
theorem NodeReachable.data_isSome {rest : X} {d : Data X} (h : NodeReachable rest d) :
    d.data.isSome := by
  induction h with
  | new => rfl
  | createMetaNode _ hd ih => rwa [Data.data_createMetaNode hd]
  | createDataNode _ hd ih => rwa [Data.data_createDataNode hd]
  | deleteMetaNode _ hd ih => rwa [Data.isSome_deleteMetaNode hd]
  | deleteDataNode _ hd ih => rwa [Data.data_deleteDataNode hd]
  | createUser _ hd ih => rwa [Data.data_createUser hd]

/-- **No metadata survives a snapshot**: there is none that `Persist` would write. -/
theorem no_snapshot_round_trips (d : Data X) : ¬ RoundTrips P emb d := by
  rintro ⟨sink, hp, -⟩
  obtain ⟨e, sink', hf, -, -⟩ := persist_fails P emb d Sink.new
  rw [hp] at hf
  cases hf

end Codec

/-- The metadata of a new store after one meta node was created. -/
def oneMetaNode : Data Unit :=
  { newStoreData () with
    maxNodeID := 1
    metaNodes :=
      [{ id := 1, host := "meta0:8091", tcpHost := "meta0:8089", pendingShardOwners := [] }] }

/-- One meta node is created, and the snapshot of the store is cancelled with nothing written,
    although protobuf and the embedded data round-trip. -/
theorem one_node_snapshot_cancelled :
    NodeReachable () oneMetaNode ∧
      ∀ (P : Protobuf) (emb : EmbeddedCodec Unit), P.RoundTrips → emb.RoundTrips →
        persist P emb oneMetaNode Sink.new
          = .error (.err .proto) { Sink.new with cancelled := true } ∧
        ¬ RoundTrips P emb oneMetaNode := by
  have hc : (newStoreData ()).createMetaNode "meta0:8091" "meta0:8089" = .ok oneMetaNode := by
    decide +kernel
  have hr : NodeReachable () oneMetaNode := .createMetaNode .new hc
  refine ⟨hr, ?_⟩
  intro P emb _ _
  have hp := persist_error P emb hr.data_isSome Sink.new
  refine ⟨hp, ?_⟩
  rintro ⟨sink, hs, -⟩
  rw [hp] at hs
  cases hs

end InfluxCluster.Meta
