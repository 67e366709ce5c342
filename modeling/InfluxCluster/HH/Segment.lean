/-
  The segment of a hinted-handoff queue (`hh/queue.go`, type `segment`): one file of records

      length (8 bytes) | body | length | body | … | footer (8 bytes)

  whose footer is the position of the record to be read next.  `append` writes the new record OVER
  the footer and a new footer behind it; `advance` overwrites the footer in place.  Four counters
  in memory mirror the file: `size`, `pos`, and the cached `currentSize` of the record at `pos`,
  next to the limit `maxSize`.

  The functions are translated one by one, in the order of the source, as programs over the
  segment and its disk (`SegM`): every early `return err` is a `throw`, and what was written before
  it stays written.  A method holds the segment's mutex from beginning to end, so each is one
  atomic step and the mutex itself is left out.  `int64` values are integers: sizes and positions
  stay below `maxOffset` because files do.  The two conversions that can lose something are kept,
  `uint64` on the way to the disk and `int64` on the way back.
-/
import InfluxCluster.HH.Disk
import InfluxCluster.Lib.Frames
import InfluxCluster.Lib.Prog

namespace InfluxCluster.HH

open InfluxCluster.Lib

/-! ## Errors -/

/-- Errors of package `os` (and of the kernel under it). -/
inductive OSErr
  /-- `os.ErrInvalid`: a call on a nil `*os.File`, or a seek before the beginning. -/
  | invalid
  /-- No such file. -/
  | notExist
  /-- The name belongs to a directory. -/
  | isDir
  /-- A write past `maxOffset`. -/
  | tooLarge
  /-- The call was scripted to fail. -/
  | failed
  deriving DecidableEq

/-- The errors the functions of `hh/queue.go` return. -/
inductive Err
  /-- `ErrNotOpen`: "queue not open". -/
  | notOpen
  /-- `ErrQueueFull`: "queue is full". -/
  | queueFull
  /-- `ErrSegmentFull`: "segment is full". -/
  | segmentFull
  /-- `io.EOF`. -/
  | eof
  /-- "bad seek. exp 0, got n" (the source prints 0 for what it expected). -/
  | badSeek (n : Int)
  /-- "short write. got n, exp e". -/
  | shortWrite (n e : Nat)
  /-- "bad read. exp 0, got n" (again 0 is printed). -/
  | badRead (n : Nat)
  /-- "record size out of range: max m: got n". -/
  | recordSize (m : Int) (n : Nat)
  /-- "queue is open". -/
  | queueOpen
  | os (e : OSErr)
  /-- A Go panic: a nil pointer, or `make` with an impossible length. -/
  | panicked
  /-- No answer of the source: a loop has used up the rounds the model gives it. -/
  | unfinished
  deriving DecidableEq

/-! ## The segment and its machine numbers -/

/-- The size of the footer, and of a record's length. -/
def footerSize : Nat := 8

/-- An open file: its name and the offset of the next read or write. -/
structure Handle where
  name : FileName
  off : Nat
  deriving DecidableEq

/-- `type segment struct` (the path is the name within the queue's directory). -/
structure Segment where
  size : Int
  file : Option Handle
  path : FileName
  pos : Int
  currentSize : Int
  maxSize : Int
  deriving DecidableEq

/-- `uint64(x)` of an `int64`. -/
def uint64 (x : Int) : Nat := (x % 2 ^ 64).toNat

/-- `int64(x)` of a `uint64`. -/
def int64 (x : Nat) : Int := if x < 2 ^ 63 then x else x - 2 ^ 64

/-- `binary.BigEndian.PutUint64` into an eight-byte buffer. -/
def putUint64 (x : Nat) : Bytes := beBytes footerSize x

@[simp] theorem putUint64_length (x : Nat) : (putUint64 x).length = 8 := beBytes_length _ _

theorem uint64_ofNat {n : Nat} (h : n ≤ maxOffset) : uint64 (n : Int) = n := by
  have : (n : Int) % 2 ^ 64 = n := Int.emod_eq_of_lt (by omega) (by unfold maxOffset at h; omega)
  rw [uint64, this, Int.toNat_natCast]

theorem int64_ofNat {n : Nat} (h : n ≤ maxOffset) : int64 n = n :=
  if_pos (by unfold maxOffset at h; omega)

theorem beNat_putUint64 {n : Nat} (h : n ≤ maxOffset) : beNat (putUint64 n) = n :=
  beNat_beBytes (by unfold maxOffset at h; unfold footerSize; omega)

/-! ## Calls on the open file -/

/-- The state a segment's method works on. -/
structure SegState where
  seg : Segment
  disk : Disk

abbrev SegM := EStateM Err SegState

/-- `whence` of a seek. -/
inductive Whence
  | set
  | fromEnd

/-- The handle and the file it is on; a nil `*os.File` is `os.ErrInvalid`. -/
def openFile? (s : SegState) : Except OSErr (Handle × File) :=
  match s.seg.file with
  | none => .error .invalid
  | some h =>
    match s.disk.file? h.name with
    | none => .error .notExist
    | some f => .ok (h, f)

/-- The state with the handle moved to `off`. -/
def SegState.moved (s : SegState) (h : Handle) (off : Nat) : SegState :=
  { s with seg := { s.seg with file := some { h with off := off } } }

/-- `file.Seek`. -/
def fileSeek (pos : Int) (w : Whence) : SegM Int := fun s =>
  match openFile? s with
  | .error e => .error (.os e) s
  | .ok (h, f) =>
    let target : Int := match w with
      | .set => pos
      | .fromEnd => f.data.length + pos
    if target < 0 then .error (.os .invalid) s
    else .ok target (s.moved h target.toNat)

/-- `file.Write`: the next outcome of the script decides; a write that fails leaves the bytes it
    has written. -/
def fileWrite (b : Bytes) : SegM Nat := fun s =>
  match openFile? s with
  | .error e => .error (.os e) s
  | .ok (h, f) =>
    match s.disk.outcome with
    | .fail n =>
      let part := b.take n
      .error (.os .failed)
        { s.moved h (h.off + part.length) with
          disk := (s.disk.skip 1).put h.name
            { data := overwrite f.data h.off part,
              modTime := if part = [] then f.modTime else s.disk.now } }
    | .ok =>
      if maxOffset < h.off + b.length then
        .error (.os .tooLarge) { s with disk := s.disk.skip 1 }
      else
        .ok b.length
          { s.moved h (h.off + b.length) with
            disk := (s.disk.skip 1).put h.name
              { data := overwrite f.data h.off b,
                modTime := if b = [] then f.modTime else s.disk.now } }

/-- `file.Read` into a buffer of `n` bytes: what there is from the offset on, `io.EOF` when there
    is nothing (and something was asked for). -/
def fileRead (n : Nat) : SegM Bytes := fun s =>
  match openFile? s with
  | .error e => .error (.os e) s
  | .ok (h, f) =>
    match s.disk.outcome with
    | .fail _ => .error (.os .failed) { s with disk := s.disk.skip 1 }
    | .ok =>
      let got := (f.data.drop h.off).take n
      if n ≠ 0 ∧ got = [] then .error .eof { s with disk := s.disk.skip 1 }
      else .ok got { s.moved h (h.off + got.length) with disk := s.disk.skip 1 }

/-- `file.Sync`. -/
def fileSync : SegM Unit := fun s =>
  match openFile? s with
  | .error e => .error (.os e) s
  | .ok _ =>
    match s.disk.outcome with
    | .fail _ => .error (.os .failed) { s with disk := s.disk.skip 1 }
    | .ok => .ok () { s with disk := s.disk.skip 1 }

/-! ## The methods of the segment -/

namespace Segment

/-- The fields of the receiver. -/
def self : SegM Segment := fun s => .ok s.seg s

/-- Assign fields of the receiver. -/
def assign (f : Segment → Segment) : SegM Unit := fun s => .ok () { s with seg := f s.seg }

def seek (pos : Int) : SegM Unit := do
  let n ← fileSeek pos .set
  if n ≠ pos then throw (.badSeek n)

def seekToCurrent : SegM Unit := do
  let l ← self
  seek l.pos

def seekEnd (pos : Int) : SegM Unit := do
  let _ ← fileSeek pos .fromEnd

/-- Read exactly `n` bytes. -/
def readBytes (n : Nat) : SegM Bytes := do
  let b ← fileRead n
  if b.length ≠ n then throw (.badRead b.length)
  return b

def readUint64 : SegM Nat := do
  let b ← readBytes 8
  return beNat b

def writeBytes (b : Bytes) : SegM Unit := do
  let n ← fileWrite b
  if n ≠ b.length then throw (.shortWrite n b.length)

def writeUint64 (sz : Nat) : SegM Unit := writeBytes (putUint64 sz)

/-- `segment.open`: write the footer of a new segment, or read the position of an existing one and
    the size of the record there. -/
def openSegment : SegM Unit := do
  let l ← self
  if l.size = 0 then
    assign fun l => { l with pos := 0, currentSize := 0 }
    writeUint64 0
    fileSync
    assign fun l => { l with size := footerSize }
  else
    seekEnd (-footerSize)
    let pos ← readUint64
    assign fun l => { l with pos := int64 pos }
    seekToCurrent
    let l ← self
    -- at the end of the segment there is no current record, and its size stays 0
    if l.pos < l.size - footerSize then
      let currentSize ← readUint64
      assign fun l => { l with currentSize := int64 currentSize }

/-- `segment.append`. -/
def append (b : Bytes) : SegM Unit := do
  let l ← self
  if l.file = none then throw .notOpen
  if l.size + b.length > l.maxSize then throw .segmentFull
  seekEnd (-footerSize)
  writeUint64 (uint64 b.length)
  writeBytes b
  writeUint64 (uint64 l.pos)
  fileSync
  assign fun l =>
    { l with
      currentSize := if l.currentSize = 0 then b.length else l.currentSize,
      size := l.size + (b.length + 8) }

/-- `segment.current`. -/
def current : SegM Bytes := do
  let l ← self
  if l.pos = l.size - 8 then throw .eof
  seekToCurrent
  let sz ← readUint64
  assign fun l => { l with currentSize := int64 sz }
  if int64 sz > l.maxSize then throw (.recordSize l.maxSize sz)
  -- make([]byte, sz) with a size that does not fit an int
  if int64 sz < 0 then throw .panicked
  readBytes sz

/-- `segment.advance`. -/
def advance : SegM Unit := do
  let l ← self
  if l.file = none then throw .notOpen
  if l.pos = l.size - footerSize then
    assign fun l => { l with currentSize := 0 }
    throw .eof
  seekEnd (-footerSize)
  let pos := l.pos + l.currentSize + 8
  writeUint64 (uint64 pos)
  fileSync
  assign fun l => { l with pos := pos }
  seekToCurrent
  let sz ← readUint64
  assign fun l => { l with currentSize := int64 sz }
  let l ← self
  if l.pos = l.size - footerSize then
    assign fun l => { l with currentSize := 0 }
    throw .eof

/-- `segment.close`: closing a nil file is an error. -/
def close : SegM Unit := do
  let l ← self
  if l.file = none then throw (.os .invalid)
  assign fun l => { l with file := none }

/-- `segment.lastModified`: the name of a nil file panics. -/
def lastModified : SegM Time := fun s =>
  match s.seg.file with
  | none => .error .panicked s
  | some h =>
    match s.disk.file? h.name with
    | none => .error (.os .notExist) s
    | some f => .ok f.modTime s

def diskUsage (l : Segment) : Int := l.size

def setMaxSegmentSize (l : Segment) (size : Int) : Segment := { l with maxSize := size }

end Segment

/-- `os.OpenFile(path, O_CREATE|O_RDWR, 0600)`: the disk with the file in it. -/
def openOrCreate (path : FileName) (d : Disk) : Except OSErr Disk :=
  match d.entries.lookup path with
  | some .dir => .error .isDir
  | some (.file _) => .ok d
  | none => .ok (d.put path { data := [], modTime := d.now })

/-- `newSegment`: open or create the file, then read or write its footer.  On an error the disk
    keeps what was written. -/
def newSegment (path : FileName) (maxSize : Int) : EStateM Err Disk Segment := fun d =>
  match openOrCreate path d with
  | .error e => .error (.os e) d
  | .ok d =>
    match d.file? path with
    | none => .error (.os .notExist) d
    | some f =>
      match Segment.openSegment
          { seg := { size := f.data.length, file := some { name := path, off := 0 }, path := path,
                     pos := 0, currentSize := 0, maxSize := maxSize },
            disk := d } with
      | .ok _ s => .ok s.seg s.disk
      | .error e s => .error e s.disk

end InfluxCluster.HH
