/-
  Type-length-value records from a peer that may send anything (`tlv/tlv.go`).

  The length is an `int64` that the peer chooses.  `ReadLV` checks it from ABOVE and uses it as the
  size of a buffer; a length with its top bit set is negative, passes the check, and `make` panics.

  * `requested`      — the size of the buffer that `ReadLV` makes, if it comes to that;
  * `readLV_eq`      — all that `ReadLV` does, by that size;
  * `tlv_total_iff`  — `ReadTLV`, `ReadLV` and `DecodeTLV` return and ask for a buffer of a proper
    size on exactly the streams whose length is cut off or not negative.
-/
import InfluxCluster.Tlv.Codec

namespace InfluxCluster.Tlv

open InfluxCluster.Lib

/-! ## Decoding -/

section Decoding

variable {V : Type}

/-- `DecodeLV`, with what `UnmarshalBinary` makes of a value. -/
def decodeLV (unmarshalBinary : Bytes → Except String V) : Reader V := do
  let buf ← readLV
  match unmarshalBinary buf with
  | .ok v => pure v
  | .error text => throw (.err text)

/-- `DecodeTLV`. -/
def decodeTLV (unmarshalBinary : Bytes → Except String V) : Reader (UInt8 × V) := do
  let typ ← readType
  let v ← decodeLV unmarshalBinary
  pure (typ, v)

end Decoding

/-! ## What `ReadLV` asks for -/

/-- The size that `ReadLV` gives to `make`; there is none if the length cannot be read or is too
    large. -/
def requested (s : Bytes) : Option Int :=
  if s.length < 8 then none
  else if int64Of (s.take 8) ≥ maxMessageSize then none
  else some (int64Of (s.take 8))

/-- The length is there, and negative. -/
def NegativeLength (s : Bytes) : Prop := 8 ≤ s.length ∧ int64Of (s.take 8) < 0

instance (s : Bytes) : Decidable (NegativeLength s) := inferInstanceAs (Decidable (_ ∧ _))

/-- **`ReadLV` by the buffer it asks for**: without one it fails, with one of a negative size it
    panics, and otherwise it reads as many bytes. -/
theorem readLV_eq (s : Bytes) :
    match requested s with
    | none => ∃ text, readLV s = .error (.err text) (s.drop 8)
    | some n =>
      readLV s = if n < 0 then .error .panicked (s.drop 8)
        else readFull n.toNat "read message value" (s.drop 8) := by
  rw [requested]
  by_cases hlen : s.length < 8
  · have hfull : ∃ text, readFull 8 "read message size" s = .error (.err text) [] := by
      rw [readFull, if_neg (by omega)]
      split
      · exact ⟨_, rfl⟩
      · exact ⟨_, rfl⟩
    obtain ⟨text, hfull⟩ := hfull
    rw [if_pos hlen]
    exact ⟨text, by rw [readLV, bind_error hfull, List.drop_of_length_le (by omega)]⟩
  · have hfull : readFull 8 "read message size" s = .ok (s.take 8) (s.drop 8) := by
      rw [readFull, if_pos (by omega)]
    rw [if_neg hlen]
    by_cases hbig : int64Of (s.take 8) ≥ maxMessageSize
    · have hthrow : readLV s = .error (.err
          (s!"max message size of {maxMessageSize} exceeded: {int64Of (s.take 8)}")) (s.drop 8) := by
        rw [readLV, bind_ok hfull, if_pos hbig]
        rfl
      rw [if_pos hbig]
      exact ⟨_, hthrow⟩
    · rw [if_neg hbig]
      dsimp only
      rw [readLV, bind_ok hfull, if_neg hbig]
      split
      · rfl
      · rfl

theorem requested_of_negative {s : Bytes} (h : NegativeLength s) :
    ∃ n, requested s = some n ∧ n < 0 := by
  refine ⟨int64Of (s.take 8), ?_, h.2⟩
  have hlen := h.1
  have hneg := h.2
  rw [requested, if_neg (by omega), if_neg (by omega)]

/-- What is asked for is the length, and it has passed the check. -/
theorem requested_eq_some {s : Bytes} {n : Int} (h : requested s = some n) :
    8 ≤ s.length ∧ n = int64Of (s.take 8) ∧ n < maxMessageSize := by
  rw [requested] at h
  split at h
  · cases h
  · next hlen =>
    split at h
    · cases h
    · next hbig =>
      cases h
      exact ⟨by omega, rfl, by omega⟩

theorem readFull_not_panicked (n : Nat) (what : String) (s : Bytes) :
    failure (readFull n what s) ≠ some .panicked := by
  rw [readFull]
  split
  · intro he
    cases he
  · split
    · intro he
      cases he
    · intro he
      cases he

/-- **`ReadLV` panics exactly on a negative length.** -/
theorem readLV_panics_iff (s : Bytes) : failure (readLV s) = some .panicked ↔ NegativeLength s := by
  have heq := readLV_eq s
  constructor
  · intro h
    by_contra hneg
    cases hreq : requested s with
    | none =>
      rw [hreq] at heq
      obtain ⟨text, heq⟩ := heq
      rw [heq] at h
      cases h
    | some n =>
      rw [hreq] at heq
      obtain ⟨hlen, hn, -⟩ := requested_eq_some hreq
      have hpos : ¬ n < 0 := fun hlt => hneg ⟨hlen, by omega⟩
      rw [heq, if_neg hpos] at h
      exact readFull_not_panicked _ _ _ h
  · intro hneg
    obtain ⟨n, hreq, hlt⟩ := requested_of_negative hneg
    rw [hreq] at heq
    dsimp only at heq
    rw [heq, if_pos hlt]
    rfl

/-! ## The readers -/

section Readers

variable {α β : Type}

/-- The reader returns, with a record or with an error, and the buffer that it asks for, with the
    length behind the first `k` bytes, has a proper size. -/
def Survives (x : Reader α) (k : Nat) (s : Bytes) : Prop :=
  failure (x s) ≠ some .panicked ∧ ∀ n ∈ requested (s.drop k), 0 ≤ n ∧ n < maxMessageSize

/-- A reader that panics exactly on a negative length survives exactly the others. -/
theorem survives_iff {x : Reader α} {k : Nat} {s : Bytes}
    (h : failure (x s) = some .panicked ↔ NegativeLength (s.drop k)) :
    Survives x k s ↔ ¬ NegativeLength (s.drop k) := by
  refine ⟨fun hs hneg => hs.1 (h.mpr hneg), fun hneg => ⟨fun hp => hneg (h.mp hp), ?_⟩⟩
  intro n hn
  obtain ⟨hlen, heq, hlt⟩ := requested_eq_some hn
  refine ⟨?_, hlt⟩
  by_contra hlt'
  exact hneg ⟨hlen, by omega⟩

/-- Going on with what cannot panic. -/
theorem failure_bind {x : Reader α} {f : α → Reader β} {s : Bytes}
    (hf : ∀ a t, failure (f a t) ≠ some .panicked) :
    failure ((x >>= f) s) = some .panicked ↔ failure (x s) = some .panicked := by
  cases hx : x s with
  | ok a t =>
    rw [bind_ok hx]
    constructor
    · exact fun h => absurd h (hf a t)
    · intro h
      cases h
  | error e t =>
    rw [bind_error hx]
    rfl

/-- Reading a type first. -/
theorem failure_readType_bind {f : UInt8 → Reader β} {P : Bytes → Prop} (hnil : ¬ P [])
    (hf : ∀ typ t, failure (f typ t) = some .panicked ↔ P t) (s : Bytes) :
    failure ((readType >>= f) s) = some .panicked ↔ P (s.drop 1) := by
  cases s with
  | nil =>
    have herr : readType [] = .error (.err "read message type: EOF") [] := rfl
    rw [bind_error herr]
    constructor
    · intro h
      cases h
    · exact fun h => absurd h hnil
  | cons typ s =>
    rw [bind_ok (readType_cons typ s)]
    exact hf typ s

variable {V : Type}

theorem decodeLV_panics_iff (u : Bytes → Except String V) (s : Bytes) :
    failure (decodeLV u s) = some .panicked ↔ NegativeLength s := by
  rw [← readLV_panics_iff, decodeLV]
  refine failure_bind fun buf t => ?_
  cases u buf with
  | ok v => exact fun h => by cases h
  | error text => exact fun h => by cases h

theorem not_negativeLength_nil : ¬ NegativeLength [] := by decide

theorem readTLV_panics_iff (s : Bytes) :
    failure (readTLV s) = some .panicked ↔ NegativeLength (s.drop 1) := by
  refine failure_readType_bind not_negativeLength_nil (fun typ t => ?_) s
  rw [← readLV_panics_iff]
  exact failure_bind fun buf u h => by cases h

theorem decodeTLV_panics_iff (u : Bytes → Except String V) (s : Bytes) :
    failure (decodeTLV u s) = some .panicked ↔ NegativeLength (s.drop 1) := by
  refine failure_readType_bind not_negativeLength_nil (fun typ t => ?_) s
  rw [← decodeLV_panics_iff u]
  exact failure_bind fun v t h => by cases h

/-- **When the readers survive a stream**: `ReadTLV`, `ReadLV` and `DecodeTLV`, with any
    `UnmarshalBinary` that returns, give a record or an error and ask for no buffer of a size that
    is negative or `MaxMessageSize` or more, if and only if the length is cut off or not negative. -/
theorem tlv_total_iff (u : Bytes → Except String V) (s : Bytes) :
    (Survives readTLV 1 s ↔ ¬ NegativeLength (s.drop 1)) ∧
    (Survives readLV 0 s ↔ ¬ NegativeLength s) ∧
    (Survives (decodeTLV u) 1 s ↔ ¬ NegativeLength (s.drop 1)) :=
  ⟨survives_iff (readTLV_panics_iff s), survives_iff (readLV_panics_iff s),
    survives_iff (decodeTLV_panics_iff u s)⟩

end Readers

/-- A type, and a length of -1. -/
def minusOne : Bytes := 1 :: List.replicate 8 255

/-- **A length of -1 panics**, in a buffer of that size. -/
theorem readTLV_minusOne_panics :
    failure (readTLV minusOne) = some .panicked ∧
      failure (readLV (minusOne.drop 1)) = some .panicked ∧
      failure (decodeTLV (V := Unit) (fun _ => .ok ()) minusOne) = some .panicked ∧
      requested (minusOne.drop 1) = some (-1) := by
  decide +kernel

end InfluxCluster.Tlv
