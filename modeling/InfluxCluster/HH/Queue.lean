/-
  The hinted-handoff queue (`hh/queue.go`, type `queue`): a list of segments, read at the head and
  written at the tail.

  SEGMENTS ARE POINTERS.  `l.head`, `l.tail` and `l.segments` share `*segment` values, and nothing
  in the code forces the three to agree — after `PurgeOlderThan` has replaced the last segment,
  `l.tail` still points at the closed one.  So the state has a heap: `heap` maps a pointer to the
  segment it points at, `next` is the first pointer not yet handed out, and a queue holds pointers.

  Every method takes the queue's mutex (`Current` takes the segment's), so each is one atomic step
  here.  Errors follow the source to the letter: `Append` returns what `addSegment` and the second
  `append` return but DROPS every error of the first `append` that is not `ErrSegmentFull`, and
  `Advance` drops every error of `advance` that is not `io.EOF`.  `attempt` is what makes a
  dropped error visible: it hands the outcome of a call to the program.

  `PurgeOlderThan` is an unbounded loop.  The model runs it for at most `fuel` rounds and answers
  `unfinished` when they do not suffice, so that an answer other than that is an answer of the
  source.

  The directory is the one of `Disk`.  `Position` and `filePos`, which only print, and `Remove`,
  which only deletes the directory of a closed queue, are left out.
-/
import InfluxCluster.HH.SegmentSpec

namespace InfluxCluster.HH

open InfluxCluster.Lib

/-! ## The queue and its state -/

/-- A `*segment`. -/
abbrev Ptr := Nat

/-- `type queue struct`; a nil pointer is `none`. -/
structure Queue where
  head : Option Ptr
  tail : Option Ptr
  maxSegmentSize : Int
  maxSize : Int
  segments : List Ptr
  deriving DecidableEq

/-- The queue, the segments it may point at, and the disk. -/
structure QState where
  q : Queue
  heap : Ptr → Segment
  next : Ptr
  disk : Disk

abbrev QM := EStateM Err QState

/-- A queue not yet opened over the directory `d`; no pointer has been handed out. -/
def QState.fresh (maxSize maxSegmentSize : Int) (d : Disk) : QState :=
  { q := { head := none, tail := none, maxSegmentSize := maxSegmentSize, maxSize := maxSize,
           segments := [] },
    heap := fun _ =>
      { size := 0, file := none, path := [], pos := 0, currentSize := 0, maxSize := 0 },
    next := 0, disk := d }

/-- `defaultSegmentSize`. -/
def defaultSegmentSize : Int := 10 * 1024 * 1024

/-- `newQueue`. -/
def newQueue (maxSize : Int) (d : Disk) : QState := QState.fresh maxSize defaultSegmentSize d

/-! ## Steps of the programs below -/

/-- The fields of the receiver. -/
def self : QM Queue := fun s => .ok s.q s

/-- Assign fields of the receiver. -/
def assign (f : Queue → Queue) : QM Unit := fun s => .ok () { s with q := f s.q }

/-- The state after a method of the segment at `p`. -/
def QState.put (s : QState) (p : Ptr) (t : SegState) : QState :=
  { s with heap := Function.update s.heap p t.seg, disk := t.disk }

/-- Call a method of the segment at `p`. -/
def call {α : Type} (p : Ptr) (x : SegM α) : QM α := fun s =>
  match x { seg := s.heap p, disk := s.disk } with
  | .ok a t => .ok a (s.put p t)
  | .error e t => .error e (s.put p t)

/-- The pointer, or the panic of a nil one. -/
def deref (p : Option Ptr) : QM Ptr :=
  match p with
  | some p => pure p
  | none => throw .panicked

/-- Run a call and look at its outcome. -/
def attempt {α : Type} (x : QM α) : QM (Except Err α) := fun s =>
  match x s with
  | .ok a s => .ok (.ok a) s
  | .error e s => .ok (.error e) s

/-- `newSegment`, at a new pointer. -/
def newSegmentPtr (path : FileName) (maxSize : Int) : QM Ptr := fun s =>
  match newSegment path maxSize s.disk with
  | .ok l d =>
    .ok s.next { s with heap := Function.update s.heap s.next l, next := s.next + 1, disk := d }
  | .error e d => .error e { s with disk := d }

/-- `os.Remove`. -/
def removeFile (path : FileName) : QM Unit := fun s =>
  match s.disk.entries.lookup path with
  | none => .error (.os .notExist) s
  | some _ => .ok () { s with disk := s.disk.remove path }

/-! ## The methods of the queue -/

/-- The identifier of a directory entry that is a segment file. -/
def segmentID (e : FileName × Entry) : Option Nat :=
  match e.2 with
  | .dir => none
  | .file _ => parseUint e.1

namespace Queue

/-- The loop of `nextSegmentID` over the entries of the directory. -/
def maxSegmentID : Nat → List (FileName × Entry) → Nat
  | maxID, [] => maxID
  | maxID, e :: files =>
    match segmentID e with
    | none => maxSegmentID maxID files
    | some segmentID => maxSegmentID (if segmentID > maxID then segmentID else maxID) files

/-- `nextSegmentID`.  The sum is a `uint64`: behind the segment 2^64 - 1 it is 0, whether there is a
    segment 0 or not. -/
def nextSegmentID : QM Nat := fun s => .ok ((maxSegmentID 0 s.disk.readDir + 1) % 2 ^ 64) s

/-- `addSegment`. -/
def addSegment : QM Ptr := do
  let nextID ← nextSegmentID
  let l ← self
  let segment ← newSegmentPtr (formatUint nextID) l.maxSegmentSize
  assign fun l => { l with segments := l.segments ++ [segment] }
  return segment

/-- The loop of `loadSegments` over the entries of the directory. -/
def loadEntries (maxSegmentSize : Int) : List (FileName × Entry) → QM (List Ptr)
  | [] => pure []
  | e :: files =>
    match segmentID e with
    | none => loadEntries maxSegmentSize files
    | some _ => do
      let segment ← newSegmentPtr e.1 maxSegmentSize
      let segments ← loadEntries maxSegmentSize files
      return segment :: segments

/-- `loadSegments`. -/
def loadSegments : QM (List Ptr) := fun s =>
  loadEntries s.q.maxSegmentSize s.disk.readDir s

/-- `trimHead`. -/
def trimHead : QM Unit := do
  let l ← self
  if l.segments.length > 1 then
    assign fun l => { l with segments := l.segments.tail }
    let head ← deref l.head
    call head Segment.close
    let path ← call head (Segment.path <$> Segment.self)
    removeFile path
    assign fun l => { l with head := l.segments.head? }

/-- The end of `Open`, once the segments are there.  `Current` panics on a stored length of 2^63 or
    more; here `Open` goes on as after any error of `Current`, so that there are runs from such a
    directory that the process does not live to see. -/
def openEnds : QM Unit := do
  assign fun l => { l with head := l.segments.head?, tail := l.segments.getLast? }
  let l ← self
  let head ← deref l.head
  match ← attempt (call head Segment.current) with
  | .error .eof => trimHead
  | _ => pure ()

/-- `Open`. -/
def openQueue : QM Unit := do
  let segments ← loadSegments
  assign fun l => { l with segments := segments }
  if segments = [] then
    let _ ← addSegment
  openEnds

/-- The loop of `Close`. -/
def closeSegments : List Ptr → QM Unit
  | [] => pure ()
  | s :: segments => do
    call s Segment.close
    closeSegments segments

/-- `Close`. -/
def close : QM Unit := do
  let l ← self
  closeSegments l.segments
  assign fun l => { l with head := none, tail := none, segments := [] }

/-- The total size on disk used by the queue. -/
def diskUsage : QM Int := fun s =>
  .ok ((s.q.segments.map fun p => (s.heap p).diskUsage).sum) s

/-- The loop of `SetMaxSegmentSize`. -/
def setSegmentsMaxSize (size : Int) : List Ptr → QM Unit
  | [] => pure ()
  | s :: segments => do
    call s (Segment.assign fun l => l.setMaxSegmentSize size)
    setSegmentsMaxSize size segments

/-- `SetMaxSegmentSize`. -/
def setMaxSegmentSize (size : Int) : QM Unit := do
  assign fun l => { l with maxSegmentSize := size }
  let l ← self
  setSegmentsMaxSize size l.segments
  let tail ← deref l.tail
  let usage ← call tail (Segment.diskUsage <$> Segment.self)
  if usage ≥ l.maxSegmentSize then
    let segment ← addSegment
    assign fun l => { l with tail := some segment }

/-- `time.Truncate(time.Second)`. -/
def truncateSecond (t : Time) : Time := t - t % 1000000000

/-- The loop of `PurgeOlderThan`. -/
def purgeLoop (cutoff : Time) : Nat → QM Unit
  | 0 => throw .unfinished
  | fuel + 1 => do
    let l ← self
    let head ← deref l.head
    let mod ← call head Segment.lastModified
    if mod < cutoff then
      if l.segments.length = 1 then
        let _ ← addSegment
      trimHead
      purgeLoop cutoff fuel

/-- `PurgeOlderThan`. -/
def purgeOlderThan (fuel : Nat) (when_ : Time) : QM Unit := do
  let l ← self
  if l.segments.length ≠ 0 then
    purgeLoop (truncateSecond when_) fuel

/-- `LastModified`; the zero time when the queue is not open. -/
def lastModified : QM Time := do
  let l ← self
  match l.tail with
  | some tail => call tail Segment.lastModified
  | none => return 0

/-- `Append`. -/
def append (b : Bytes) : QM Unit := do
  let l ← self
  match l.tail with
  | none => throw .notOpen
  | some tail =>
    let usage ← diskUsage
    if usage + b.length > l.maxSize then throw .queueFull
    match ← attempt (call tail (Segment.append b)) with
    | .error .segmentFull =>
      let segment ← addSegment
      assign fun l => { l with tail := some segment }
      call segment (Segment.append b)
    -- every other error is dropped
    | _ => pure ()

/-- `Current`. -/
def current : QM Bytes := do
  let l ← self
  match l.head with
  | none => throw .notOpen
  | some head => call head Segment.current

/-- `Advance`. -/
def advance : QM Unit := do
  let l ← self
  match l.head with
  | none => throw .notOpen
  | some head =>
    match ← attempt (call head Segment.advance) with
    | .error .eof => trimHead
    -- every other error is dropped
    | _ => pure ()

end Queue

/-- **The logical content of the queue**: segment after segment, the records from its position to
    its footer. -/
def content (s : QState) : Option (List Bytes) :=
  (s.q.segments.mapM fun p => unread (s.heap p) s.disk).map List.flatten

end InfluxCluster.HH
