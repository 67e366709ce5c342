/-
  Type-length-value records (`tlv/tlv.go`): a byte for the type, eight for the length, the value.

  READERS are programs on the bytes that are still to come; a connection that the other side has
  closed is at its end.  Errors are their texts.  A length is an `int64`: one that is too large is
  an error, and one that is NEGATIVE makes `make` panic.

  WRITERS are generic in what they write to.  What they write to a buffer is the encoding of the
  record, and the two directions fit together:

  * `readTLV_encode`   — a record that is not too large is read back, and what follows is left;
  * `readTLV_tooLarge` — a record that is too large is written without complaint and not read;
  * `readTLV_sound`    — what is consumed for a record IS its encoding.
-/
import InfluxCluster.Lib.Bytes
import InfluxCluster.Lib.Prog

namespace InfluxCluster.Tlv

open InfluxCluster.Lib

/-- `MaxMessageSize`. -/
def maxMessageSize : Nat := 1024 * 1024 * 1024

/-- How a reader ends other than by returning: with an error, known by its text, or by a panic. -/
inductive Halt
  | err (text : String)
  | panicked
  deriving DecidableEq

/-- A program that reads from a stream. -/
abbrev Reader := EStateM Halt Bytes

/-! ## Reading -/

/-- `io.ReadFull` with a buffer of `n` bytes, and the error as the caller wraps it. -/
def readFull (n : Nat) (what : String) : Reader Bytes := fun s =>
  if n ≤ s.length then .ok (s.take n) (s.drop n)
  else if s = [] then .error (.err (what ++ ": EOF")) []
  else .error (.err (what ++ ": unexpected EOF")) []

/-- The `int64` that eight bytes stand for. -/
def int64Of (b : Bytes) : Int := if beNat b < 2 ^ 63 then beNat b else beNat b - 2 ^ 64

/-- `ReadType`. -/
def readType : Reader UInt8 := do
  let typ ← readFull 1 "read message type"
  pure (typ.headD 0)

/-- `ReadLV`. -/
def readLV : Reader Bytes := do
  let b ← readFull 8 "read message size"
  let sz := int64Of b
  if sz ≥ maxMessageSize then
    throw (.err (s!"max message size of {maxMessageSize} exceeded: {sz}"))
  else if sz < 0 then
    -- make([]byte, sz): len out of range
    throw .panicked
  else readFull sz.toNat "read message value"

/-- `ReadTLV`. -/
def readTLV : Reader (UInt8 × Bytes) := do
  let typ ← readType
  let buf ← readLV
  pure (typ, buf)

/-! ## Writing -/

section Writing

variable {σ : Type}

/-- Something to write to; `Write` returns the text of its error. -/
abbrev Writer (σ : Type) := Bytes → EStateM String σ Unit

/-- A call of `Write`, with its error as the caller wraps it. -/
def wrapped (w : Writer σ) (what : String) (b : Bytes) : EStateM String σ Unit := fun s =>
  match w b s with
  | .ok a s' => .ok a s'
  | .error e s' => .error (what ++ ": " ++ e) s'

/-- `WriteType`. -/
def writeType (w : Writer σ) (typ : UInt8) : EStateM String σ Unit :=
  wrapped w "write message type" [typ]

/-- `WriteLV`. -/
def writeLV (w : Writer σ) (buf : Bytes) : EStateM String σ Unit := do
  wrapped w "write message size" (beBytes 8 buf.length)
  wrapped w "write message value" buf

/-- `WriteTLV`. -/
def writeTLV (w : Writer σ) (typ : UInt8) (buf : Bytes) : EStateM String σ Unit := do
  writeType w typ
  writeLV w buf

end Writing

/-- A buffer in memory takes everything. -/
def buffer : Writer Bytes := fun b s => .ok () (s ++ b)

/-- What `WriteTLV` writes. -/
def encode (typ : UInt8) (buf : Bytes) : Bytes := final (writeTLV buffer typ buf [])

theorem encode_eq (typ : UInt8) (buf : Bytes) :
    encode typ buf = typ :: (beBytes 8 buf.length ++ buf) := by
  show ([] ++ [typ] ++ beBytes 8 buf.length) ++ buf = _
  simp

/-! ## One record -/

theorem readFull_append {n : Nat} {b : Bytes} (h : b.length = n) (what : String) (rest : Bytes) :
    readFull n what (b ++ rest) = .ok b rest := by
  have hle : n ≤ (b ++ rest).length := by
    rw [List.length_append]
    omega
  rw [readFull, if_pos hle, List.take_left' h, List.drop_left' h]

theorem readFull_ok {n : Nat} {what : String} {s b s' : Bytes} (h : readFull n what s = .ok b s') :
    b.length = n ∧ s = b ++ s' := by
  rw [readFull] at h
  split at h
  · next hle =>
    cases h
    refine ⟨?_, (List.take_append_drop n s).symm⟩
    rw [List.length_take]
    omega
  · split at h
    · cases h
    · cases h

theorem int64Of_beBytes {n : Nat} (h : n < 2 ^ 63) : int64Of (beBytes 8 n) = n := by
  have hn : n < 256 ^ 8 := by omega
  rw [int64Of, beNat_beBytes hn, if_pos h]

theorem readType_cons (typ : UInt8) (rest : Bytes) : readType (typ :: rest) = .ok typ rest := by
  have hfull : readFull 1 "read message type" (typ :: rest) = .ok [typ] rest :=
    readFull_append (b := [typ]) rfl _ rest
  rw [readType, bind_ok hfull]
  rfl

/-- The length is read; what happens next depends on it alone. -/
theorem readLV_size {n : Nat} (h : n < 2 ^ 63) (s : Bytes) :
    readLV (beBytes 8 n ++ s)
      = if n ≥ maxMessageSize then
          .error (.err (s!"max message size of {maxMessageSize} exceeded: {(n : Int)}")) s
        else readFull n "read message value" s := by
  rw [readLV, bind_ok (readFull_append (beBytes_length 8 n) _ s), int64Of_beBytes h]
  by_cases hn : n ≥ maxMessageSize
  · rw [if_pos hn, if_pos (by omega)]
    rfl
  · rw [if_neg hn, if_neg (by omega), if_neg (by omega), Int.toNat_natCast]

/-- A record that is not too large is read back. -/
theorem readLV_append {buf : Bytes} (h : buf.length < maxMessageSize) (rest : Bytes) :
    readLV (beBytes 8 buf.length ++ (buf ++ rest)) = .ok buf rest := by
  have hmax : maxMessageSize < 2 ^ 63 := by decide
  rw [readLV_size (by omega), if_neg (by omega)]
  exact readFull_append rfl _ rest

/-- A record is read back, and the rest is left. -/
theorem readTLV_encode (typ : UInt8) {buf : Bytes} (h : buf.length < maxMessageSize)
    (rest : Bytes) : readTLV (encode typ buf ++ rest) = .ok (typ, buf) rest := by
  rw [encode_eq, List.cons_append, List.append_assoc, readTLV, bind_ok (readType_cons typ _),
    bind_ok (readLV_append h rest)]
  rfl

/-- A record that is too large is rejected, with nothing read of its value. -/
theorem readTLV_tooLarge (typ : UInt8) {buf : Bytes} (h : maxMessageSize ≤ buf.length)
    (hlen : buf.length < 2 ^ 63) (rest : Bytes) :
    readTLV (encode typ buf ++ rest)
      = .error (.err (s!"max message size of {maxMessageSize} exceeded: {(buf.length : Int)}"))
          (buf ++ rest) := by
  have hlv := readLV_size hlen (buf ++ rest)
  rw [if_pos h] at hlv
  rw [encode_eq, List.cons_append, List.append_assoc, readTLV, bind_ok (readType_cons typ _),
    bind_error hlv]

theorem readType_ok {s s' : Bytes} {typ : UInt8} (h : readType s = .ok typ s') : s = typ :: s' := by
  obtain ⟨b, t, hfull, hpure⟩ := ok_of_bind h
  obtain ⟨hlen, rfl⟩ := readFull_ok hfull
  obtain ⟨x, rfl⟩ := List.length_eq_one_iff.mp hlen
  cases hpure
  rfl

/-- What was read was written, and is not too long. -/
theorem readLV_ok {s s' buf : Bytes} (h : readLV s = .ok buf s') :
    buf.length < maxMessageSize ∧ s = beBytes 8 buf.length ++ (buf ++ s') := by
  obtain ⟨b, t, hsize, hrest⟩ := ok_of_bind h
  obtain ⟨hlen, rfl⟩ := readFull_ok hsize
  have hlt : beNat b < 256 ^ 8 := by
    rw [← hlen]
    exact beNat_lt b
  by_cases hbig : int64Of b ≥ maxMessageSize
  · rw [if_pos hbig] at hrest
    cases hrest
  · by_cases hneg : int64Of b < 0
    · rw [if_neg hbig, if_pos hneg] at hrest
      cases hrest
    · -- the length that was read is that of the value, so its eight bytes are those of the length
      rw [if_neg hbig, if_neg hneg] at hrest
      obtain ⟨hval, rfl⟩ := readFull_ok hrest
      have hnat : beNat b = buf.length := by
        rw [int64Of] at hval hneg hbig
        split at hval
        · omega
        · omega
      have hb : beBytes 8 buf.length = b := by
        rw [← hnat, ← hlen]
        exact beBytes_beNat b
      refine ⟨by omega, ?_⟩
      rw [hb]

/-- What is consumed for a record is its encoding. -/
theorem readTLV_sound {s s' : Bytes} {typ : UInt8} {buf : Bytes}
    (h : readTLV s = .ok (typ, buf) s') :
    buf.length < maxMessageSize ∧ s = encode typ buf ++ s' := by
  obtain ⟨typ', t, htype, hrest⟩ := ok_of_bind h
  obtain ⟨buf', t', hlv, hpure⟩ := ok_of_bind hrest
  cases hpure
  obtain ⟨hlen, rfl⟩ := readLV_ok hlv
  rw [readType_ok htype, encode_eq, List.cons_append, List.append_assoc]
  exact ⟨hlen, rfl⟩

/-! ## Streams -/

/-- A record that can be read. -/
structure Frame where
  typ : UInt8
  payload : Bytes
  small : payload.length < maxMessageSize

/-- What `ReadTLV` returns for it. -/
def Frame.record (f : Frame) : UInt8 × Bytes := (f.typ, f.payload)

/-- The records one after another, as `WriteTLV` writes them. -/
def stream (fs : List Frame) : Bytes := fs.flatMap fun f => encode f.typ f.payload

/-- `ReadTLV` so many times. -/
def readTLVs : Nat → Reader (List (UInt8 × Bytes))
  | 0 => pure []
  | n + 1 => do
    let r ← readTLV
    let rs ← readTLVs n
    pure (r :: rs)

@[simp] theorem stream_cons (f : Frame) (fs : List Frame) :
    stream (f :: fs) = encode f.typ f.payload ++ stream fs := rfl

/-- A stream of records is read back record by record. -/
theorem readTLVs_stream (fs : List Frame) (trailing : Bytes) :
    readTLVs fs.length (stream fs ++ trailing) = .ok (fs.map Frame.record) trailing := by
  induction fs with
  | nil => rfl
  | cons f fs ih =>
    rw [stream_cons, List.append_assoc, List.length_cons, readTLVs,
      bind_ok (readTLV_encode f.typ f.small _), bind_ok ih]
    rfl

/-- **The codec of a stream.**  Records are read back with whatever follows them left alone, records
    that are too large are rejected, and what is consumed for a record is its encoding. -/
theorem tlv_codec :
    (∀ (fs : List Frame) (trailing : Bytes),
      readTLVs fs.length (stream fs ++ trailing) = .ok (fs.map Frame.record) trailing) ∧
    (∀ (typ : UInt8) (buf trailing : Bytes), maxMessageSize ≤ buf.length → buf.length < 2 ^ 63 →
      ∃ text s, readTLV (encode typ buf ++ trailing) = .error (.err text) s) ∧
    (∀ (s s' : Bytes) (typ : UInt8) (buf : Bytes), readTLV s = .ok (typ, buf) s' →
      s = encode typ buf ++ s') := by
  refine ⟨readTLVs_stream, ?_, ?_⟩
  · intro typ buf trailing hmax hlen
    exact ⟨_, _, readTLV_tooLarge typ hmax hlen trailing⟩
  · intro s s' typ buf h
    exact (readTLV_sound h).2

end InfluxCluster.Tlv
