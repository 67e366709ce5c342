/-
  The hinted-handoff processor of one node (`hh/node_processor.go`): `WriteShard` puts a block into
  the queue, `SendWrite` takes the block at its head to the node.

  BLOCKS.  A block is the shard's number, eight bytes, and the points in line protocol, each with a
  newline behind it.  Printing and parsing points is `Point.String` and `models.ParsePoints` of
  another package: they are a parameter (`PointCodec`), and that the second inverts the first is a
  hypothesis where it is needed (`Inverts`).

  THE WORLD OUTSIDE.  What `meta.DataNode` and `writer.WriteShard` answer is not the processor's to
  decide.  A call of `SendWrite` asks each at most once, so an `Env` gives the two answers of one
  call, and every statement is about any of them.

  The fields that only `run` reads (the intervals, `RetryRateLimit`, `MaxAge`), the statistics and
  the logger are left out.  Both methods hold `n.mu` for reading only, so they run side by side:
  that is `Handoff`.
-/
import InfluxCluster.HH.Queue

namespace InfluxCluster.HH

open InfluxCluster.Lib

/-- The errors that the processor returns; `io.EOF` is that of the queue. -/
inductive NErr
  /-- "node processor is closed". -/
  | closed
  /-- "node processor is open". -/
  | isOpen
  /-- `meta.DataNode` failed. -/
  | dataNode
  | queue (e : Err)
  /-- "too short: len = n". -/
  | tooShort (n : Nat)
  /-- `models.ParsePoints` failed. -/
  | parsePoints
  /-- `writer.WriteShard` failed. -/
  | writeShard
  deriving DecidableEq

/-! ## Blocks -/

/-- `Point.String`, and `models.ParsePoints` with `none` for an error. -/
structure PointCodec (Point : Type) where
  string : Point → Bytes
  parsePoints : Bytes → Option (List Point)

section Blocks

variable {Point : Type} (c : PointCodec Point)

/-- The points in line protocol, each with a newline behind it. -/
def lines (points : List Point) : Bytes := points.flatMap fun p => c.string p ++ [10]

/-- Parsing inverts printing. -/
def PointCodec.Inverts : Prop := ∀ points, c.parsePoints (lines c points) = some points

/-- `marshalWrite`. -/
def marshalWrite (shardID : UInt64) (points : List Point) : Bytes :=
  points.foldl (fun b p => b ++ c.string p ++ [10]) (putUint64 shardID.toNat)

/-- `unmarshalWrite`. -/
def unmarshalWrite (b : Bytes) : Except NErr (UInt64 × List Point) :=
  if b.length < 8 then .error (.tooShort b.length)
  else
    let ownerID := UInt64.ofNat (beNat (b.take 8))
    match c.parsePoints (b.drop 8) with
    | some points => .ok (ownerID, points)
    | none => .error .parsePoints

/-- What a block says, if it can be read. -/
def decoded (b : Bytes) : Option (UInt64 × List Point) := (unmarshalWrite c b).toOption

theorem marshalWrite_eq (shardID : UInt64) (points : List Point) :
    marshalWrite c shardID points = putUint64 shardID.toNat ++ lines c points := by
  have hfold : ∀ (points : List Point) (b : Bytes),
      points.foldl (fun b p => b ++ c.string p ++ [10]) b = b ++ lines c points := by
    intro points
    induction points with
    | nil => exact fun b => (List.append_nil b).symm
    | cons p points ih =>
      intro b
      rw [List.foldl_cons, ih, lines, lines, List.flatMap_cons]
      simp only [List.append_assoc]
  exact hfold points _

/-- A block is never empty. -/
theorem marshalWrite_ne_nil (shardID : UInt64) (points : List Point) :
    marshalWrite c shardID points ≠ [] := by
  intro he
  have hlen := congrArg List.length he
  rw [marshalWrite_eq, List.length_append, putUint64_length, List.length_nil] at hlen
  omega

variable {c}

/-- **A block is read back as it was written.** -/
theorem unmarshalWrite_marshalWrite (hc : c.Inverts) (shardID : UInt64) (points : List Point) :
    unmarshalWrite c (marshalWrite c shardID points) = .ok (shardID, points) := by
  have hlt : shardID.toNat < 256 ^ footerSize := shardID.toNat_lt
  rw [marshalWrite_eq, unmarshalWrite, if_neg (by rw [List.length_append, putUint64_length]; omega),
    List.take_left' (putUint64_length _), List.drop_left' (putUint64_length _), hc points,
    putUint64, beNat_beBytes hlt, UInt64.ofNat_toNat]

theorem decoded_marshalWrite (hc : c.Inverts) (shardID : UInt64) (points : List Point) :
    decoded c (marshalWrite c shardID points) = some (shardID, points) := by
  rw [decoded, unmarshalWrite_marshalWrite hc]
  rfl

end Blocks

/-! ## The processor -/

/-- `type NodeProcessor struct`; `done` says whether the channel is there. -/
structure NodeProcessor where
  nodeID : UInt64
  done : Bool
  queue : QState

abbrev NM := EStateM NErr NodeProcessor

/-- Call a method of the queue. -/
def NodeProcessor.call {α : Type} (x : QM α) : NM α := fun n =>
  match x n.queue with
  | .ok a s => .ok a { n with queue := s }
  | .error e s => .error (.queue e) { n with queue := s }

/-- The answers that one call of `SendWrite` gets from outside. -/
structure Env (Point : Type) where
  /-- `meta.DataNode`: whether there is such a node. -/
  dataNode : UInt64 → Except NErr Bool
  /-- `writer.WriteShard`, for the shard, the node and the points. -/
  writeShard : UInt64 → UInt64 → List Point → Except NErr Unit

namespace NodeProcessor

variable {Point : Type} (c : PointCodec Point)

/-- The fields of the receiver. -/
def self : NM NodeProcessor := fun n => .ok n n

theorem self_eq (n : NodeProcessor) : self n = .ok n n := rfl

/-- An answer from outside. -/
def answer {α : Type} (x : Except NErr α) : NM α :=
  match x with
  | .ok a => pure a
  | .error e => throw e

/-- Call a method of the queue and only log its error. -/
def callLogged (x : QM Unit) : NM Unit := fun n => .ok () { n with queue := final (x n.queue) }

/-- `WriteShard`. -/
def writeShard (shardID : UInt64) (points : List Point) : NM Unit := do
  let n ← self
  if n.done = false then throw .closed
  call (Queue.append (marshalWrite c shardID points))

/-- `Close`, once the goroutine has ended. -/
def close : NM Unit := do
  let n ← self
  if n.done then
    set { n with done := false }
    call Queue.close

/-- `Purge`. -/
def purge : NM Unit := do
  let n ← self
  if n.done then throw .isOpen
  set { n with queue := { n.queue with disk := n.queue.disk.removeAll } }

/-- `LastModified`. -/
def lastModified : NM Time := call Queue.lastModified

/-- `Active`. -/
def active (env : Env Point) : NM Bool := do
  let n ← self
  answer (env.dataNode n.nodeID)

/-- `SendWrite`. -/
def sendWrite (env : Env Point) : NM Nat := do
  let n ← self
  let active ← active env
  if active = false then throw (.queue .eof)
  let buf ← call Queue.current
  match unmarshalWrite c buf with
  | .error err =>
    -- try to skip it
    callLogged Queue.advance
    throw err
  | .ok (shardID, points) =>
    answer (env.writeShard shardID n.nodeID points)
    callLogged Queue.advance
    return buf.length

/-! ## The exits of `SendWrite` -/

end NodeProcessor

/-- What comes of the block at the head. -/
inductive Verdict (Point : Type)
  /-- It cannot be read, and is skipped. -/
  | skipped (err : NErr)
  /-- The node has taken it. -/
  | taken (shardID : UInt64) (points : List Point)
  /-- The node has not taken it, and it stays. -/
  | refused (err : NErr)

/-- The part of `SendWrite` between `Current` and `Advance`. -/
def verdict {Point : Type} (c : PointCodec Point) (env : Env Point) (nodeID : UInt64) (buf : Bytes) :
    Verdict Point :=
  match unmarshalWrite c buf with
  | .error err => .skipped err
  | .ok (shardID, points) =>
    match env.writeShard shardID nodeID points with
    | .error err => .refused err
    | .ok _ => .taken shardID points

/-- What `writer.WriteShard` has taken. -/
def Verdict.sent {Point : Type} : Verdict Point → List (UInt64 × List Point)
  | .taken shardID points => [(shardID, points)]
  | .skipped _ | .refused _ => []

namespace NodeProcessor

variable {Point : Type} (c : PointCodec Point)

section Exits

variable {c} {n : NodeProcessor} {env : Env Point} {s : QState} {buf : Bytes}

theorem call_ok {α : Type} {x : QM α} {a : α} (h : x n.queue = .ok a s) :
    call x n = .ok a { n with queue := s } := by
  rw [call, h]

theorem call_error {α : Type} {x : QM α} {e : Err} (h : x n.queue = .error e s) :
    call x n = .error (.queue e) { n with queue := s } := by
  rw [call, h]

theorem active_eq : active env n = answer (env.dataNode n.nodeID) n := rfl

/-- `Active` fails. -/
theorem sendWrite_dataNode {e : NErr} (hd : env.dataNode n.nodeID = .error e) :
    sendWrite c env n = .error e n := by
  have hactive : active env n = .error e n := by
    rw [active_eq, hd]
    rfl
  rw [sendWrite, bind_ok (self_eq n), bind_error hactive]

/-- The node is not active. -/
theorem sendWrite_inactive (hd : env.dataNode n.nodeID = .ok false) :
    sendWrite c env n = .error (.queue .eof) n := by
  have hactive : active env n = .ok false n := by
    rw [active_eq, hd]
    rfl
  rw [sendWrite, bind_ok (self_eq n), bind_ok hactive, if_pos rfl]
  rfl

/-- The node is active: the rest of `SendWrite` begins with `Current`. -/
theorem sendWrite_active (hd : env.dataNode n.nodeID = .ok true) :
    sendWrite c env n = (call Queue.current >>= fun buf =>
      match unmarshalWrite c buf with
      | .error err => callLogged Queue.advance >>= fun _ => throw err
      | .ok (shardID, points) => answer (env.writeShard shardID n.nodeID points) >>= fun _ =>
          callLogged Queue.advance >>= fun _ => pure buf.length) n := by
  have hactive : active env n = .ok true n := by
    rw [active_eq, hd]
    rfl
  rw [sendWrite, bind_ok (self_eq n), bind_ok hactive, if_neg Bool.noConfusion]

/-- `Current` fails. -/
theorem sendWrite_nothing {e : Err} (hd : env.dataNode n.nodeID = .ok true)
    (hcur : Queue.current n.queue = .error e s) :
    sendWrite c env n = .error (.queue e) { n with queue := s } := by
  rw [sendWrite_active hd, bind_error (call_error hcur)]

/-- `Current` has returned a block: it is left behind unless the node refuses it. -/
theorem sendWrite_fetched (hd : env.dataNode n.nodeID = .ok true)
    (hcur : Queue.current n.queue = .ok buf s) : sendWrite c env n =
      match verdict c env n.nodeID buf with
      | .skipped e => .error e { n with queue := final (Queue.advance s) }
      | .taken _ _ => .ok buf.length { n with queue := final (Queue.advance s) }
      | .refused e => .error e { n with queue := s } := by
  rw [sendWrite_active hd, bind_ok (call_ok hcur), verdict]
  cases unmarshalWrite c buf with
  | error e => rfl
  | ok x =>
    obtain ⟨shardID, points⟩ := x
    dsimp only
    cases env.writeShard shardID n.nodeID points with
    | error e => rfl
    | ok u => rfl

end Exits

end NodeProcessor

end InfluxCluster.HH
