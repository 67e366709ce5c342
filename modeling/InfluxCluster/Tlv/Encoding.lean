/-
  Sending values as type-length-value records (`tlv/tlv.go`, `EncodeTLV` and `DecodeTLV`).

  `EncodeTLV` writes the type BEFORE it asks the value for its bytes.  A value that cannot be
  marshalled is reported to the caller, but its type is in the stream already, with no length behind
  it.  A receiver takes the next eight bytes for that length, and they begin with a type.  Types are
  small and not zero, so what it sees is a length of at least `2^56`: too large.

  A sender that goes on after the error therefore has lost the receiver, and at exactly that value:
  everything before it is received, and the call that meets its type ends in an error
  (`encode_stream_until_failure`).  That call has also taken the first eight bytes of what was sent
  behind it, so a receiver that goes on is out of step with the records; the next call may read a
  length below zero, and panic.
-/
import InfluxCluster.Tlv.Hostile

namespace InfluxCluster.Tlv

open InfluxCluster.Lib

variable {V : Type}

/-! ## Sending -/

section Encoding

variable {σ : Type}

/-- `EncodeLV`, with what `MarshalBinary` makes of a value. -/
def encodeLV (w : Writer σ) (marshalBinary : V → Except String Bytes) (v : V) :
    EStateM String σ Unit :=
  match marshalBinary v with
  | .error text => throw text
  | .ok buf => writeLV w buf

/-- `EncodeTLV`. -/
def encodeTLV (w : Writer σ) (marshalBinary : V → Except String Bytes) (typ : UInt8) (v : V) :
    EStateM String σ Unit := do
  writeType w typ
  encodeLV w marshalBinary v

end Encoding

/-- What a connection has taken after `EncodeTLV` for each of these values, whether the calls
    succeeded or not. -/
def sent (marshalBinary : V → Except String Bytes) (values : List (UInt8 × V)) : Bytes :=
  values.foldl (fun s x => final (encodeTLV buffer marshalBinary x.1 x.2 s)) []

/-- The share of one value: a record, or a type alone. -/
def share (marshalBinary : V → Except String Bytes) (x : UInt8 × V) : Bytes :=
  match marshalBinary x.2 with
  | .error _ => [x.1]
  | .ok buf => encode x.1 buf

theorem encodeTLV_buffer (marshalBinary : V → Except String Bytes) (x : UInt8 × V) (s : Bytes) :
    final (encodeTLV buffer marshalBinary x.1 x.2 s) = s ++ share marshalBinary x := by
  rw [share]
  cases hm : marshalBinary x.2 with
  | error text =>
    rw [encodeTLV, encodeLV, hm]
    rfl
  | ok buf =>
    rw [encodeTLV, encodeLV, hm]
    show ((s ++ [x.1]) ++ beBytes 8 buf.length) ++ buf = s ++ encode x.1 buf
    rw [encode_eq]
    simp

theorem sent_eq (marshalBinary : V → Except String Bytes) (values : List (UInt8 × V)) :
    sent marshalBinary values = values.flatMap (share marshalBinary) := by
  have hfold : ∀ s : Bytes,
      values.foldl (fun s x => final (encodeTLV buffer marshalBinary x.1 x.2 s)) s
        = s ++ values.flatMap (share marshalBinary) := by
    induction values with
    | nil => simp
    | cons x values ih =>
      intro s
      rw [List.foldl_cons, encodeTLV_buffer, ih, List.flatMap_cons, List.append_assoc]
  exact hfold []

theorem sent_cons (marshalBinary : V → Except String Bytes) (x : UInt8 × V)
    (values : List (UInt8 × V)) :
    sent marshalBinary (x :: values) = share marshalBinary x ++ sent marshalBinary values := by
  rw [sent_eq, sent_eq, List.flatMap_cons]

/-! ## Receiving -/

/-- A receiver: `DecodeTLV` again and again, at most so many times, up to the first error.  What it
    has received, the error with which it stopped, and what is left of the stream. -/
def received (unmarshalBinary : Bytes → Except String V) :
    Nat → Bytes → List (UInt8 × V) × Option Halt × Bytes
  | 0, s => ([], none, s)
  | n + 1, s =>
    match decodeTLV unmarshalBinary s with
    | .ok r s' => (r :: (received unmarshalBinary n s').1, (received unmarshalBinary n s').2)
    | .error e s' => ([], some e, s')

theorem decodeTLV_encode (unmarshalBinary : Bytes → Except String V) (typ : UInt8) {buf : Bytes}
    {v : V} (h : buf.length < maxMessageSize) (hv : unmarshalBinary buf = .ok v) (rest : Bytes) :
    decodeTLV unmarshalBinary (encode typ buf ++ rest) = .ok (typ, v) rest := by
  have hlv : decodeLV unmarshalBinary (beBytes 8 buf.length ++ (buf ++ rest)) = .ok v rest := by
    rw [decodeLV, bind_ok (readLV_append h rest), hv]
    rfl
  rw [encode_eq, List.cons_append, List.append_assoc, decodeTLV, bind_ok (readType_cons typ _),
    bind_ok hlv]
  rfl

/-- Eight bytes that begin with a type of the protocol are too large a length. -/
theorem int64Of_type_cons {typ : UInt8} {b : Bytes} (hpos : 0 < typ.toNat) (hlt : typ.toNat < 128)
    (hb : b.length = 7) : (maxMessageSize : Int) ≤ int64Of (typ :: b) := by
  have hcons := beNat_cons typ b
  have hlow := beNat_lt b
  rw [hb] at hcons hlow
  have hsmall : beNat (typ :: b) < 2 ^ 63 := by omega
  have hlarge : maxMessageSize ≤ beNat (typ :: b) := by
    have hmax : maxMessageSize = 1073741824 := rfl
    omega
  rw [int64Of, if_pos hsmall]
  exact_mod_cast hlarge

/-- No length can be read from bytes that begin with a type, and none from no bytes. -/
theorem readLV_type_cons {s : Bytes}
    (h : ∀ typ b, s = typ :: b → 0 < typ.toNat ∧ typ.toNat < 128) :
    ∃ text, readLV s = .error (.err text) (s.drop 8) := by
  have heq := readLV_eq s
  have hnone : requested s = none := by
    rw [requested]
    by_cases hlen : s.length < 8
    · rw [if_pos hlen]
    · rw [if_neg hlen]
      cases s with
      | nil => exact absurd (by decide : ([] : Bytes).length < 8) hlen
      | cons typ b =>
        obtain ⟨hpos, hlt⟩ := h typ b rfl
        have hb : (b.take 7).length = 7 := by
          rw [List.length_cons] at hlen
          rw [List.length_take]
          omega
        rw [List.take_succ_cons, if_pos (int64Of_type_cons hpos hlt hb)]
  rw [hnone] at heq
  exact heq

/-- What is sent begins with the type of its first value. -/
theorem sent_head (marshalBinary : V → Except String Bytes) {values : List (UInt8 × V)}
    (htype : ∀ x ∈ values, 0 < x.1.toNat ∧ x.1.toNat < 128) (typ : UInt8) (b : Bytes)
    (h : sent marshalBinary values = typ :: b) : 0 < typ.toNat ∧ typ.toNat < 128 := by
  cases values with
  | nil => cases h
  | cons x values =>
    have hhead : ∃ b', share marshalBinary x = x.1 :: b' := by
      rw [share]
      split
      · exact ⟨_, rfl⟩
      · exact ⟨_, encode_eq _ _⟩
    obtain ⟨b', hb'⟩ := hhead
    rw [sent_cons, hb', List.cons_append] at h
    cases h
    exact htype x List.mem_cons_self

/-- A type that nothing belongs to: the call ends in an error, and has taken eight bytes more. -/
theorem decodeTLV_dangling (marshalBinary : V → Except String Bytes)
    (unmarshalBinary : Bytes → Except String V) (typ : UInt8) {values : List (UInt8 × V)}
    (htype : ∀ x ∈ values, 0 < x.1.toNat ∧ x.1.toNat < 128) :
    ∃ text, decodeTLV unmarshalBinary (typ :: sent marshalBinary values)
      = .error (.err text) ((sent marshalBinary values).drop 8) := by
  obtain ⟨text, hlv⟩ := readLV_type_cons (sent_head marshalBinary htype)
  refine ⟨text, ?_⟩
  have hdecode : decodeLV unmarshalBinary (sent marshalBinary values)
      = .error (.err text) ((sent marshalBinary values).drop 8) := by
    rw [decodeLV, bind_error hlv]
  rw [decodeTLV, bind_ok (readType_cons typ _), bind_error hdecode]

/-! ## The stream -/

/-- The value can be marshalled. -/
def marshals (marshalBinary : V → Except String Bytes) (x : UInt8 × V) : Bool :=
  (marshalBinary x.2).isOk

/-- What is left to a receiver that has met the first value that does not marshal: what was sent
    behind that value, without its first eight bytes. -/
def leftOver (marshalBinary : V → Except String Bytes) (values : List (UInt8 × V)) : Bytes :=
  match values.dropWhile (marshals marshalBinary) with
  | [] => []
  | _ :: later => (sent marshalBinary later).drop 8

/-- **A stream of `EncodeTLV` is received up to the first value that does not marshal.**  Whoever
    calls `DecodeTLV` on it `n` times, but stops at the first error, gets the values before that one,
    in order and with their types.  If that is not enough, the next call ends in an error and not in
    a panic, even if there are more records in the stream; and it leaves the stream out of step,
    eight bytes into what was sent behind. -/
theorem encode_stream_until_failure (marshalBinary : V → Except String Bytes)
    (unmarshalBinary : Bytes → Except String V) (values : List (UInt8 × V))
    (hinverse : ∀ x ∈ values, ∀ buf, marshalBinary x.2 = .ok buf →
      buf.length < maxMessageSize ∧ unmarshalBinary buf = .ok x.2)
    (htype : ∀ x ∈ values, 0 < x.1.toNat ∧ x.1.toNat < 128) (n : Nat) :
    (received unmarshalBinary n (sent marshalBinary values)).1
      = (values.takeWhile (marshals marshalBinary)).take n ∧
    ((values.takeWhile (marshals marshalBinary)).length < n →
      ∃ text, (received unmarshalBinary n (sent marshalBinary values)).2
        = (some (.err text), leftOver marshalBinary values)) := by
  induction values generalizing n with
  | nil =>
    cases n with
    | zero => exact ⟨rfl, fun h => absurd h (Nat.not_lt_zero _)⟩
    | succ n => exact ⟨rfl, fun _ => ⟨_, rfl⟩⟩
  | cons x values ih =>
    have htypes : ∀ y ∈ values, 0 < y.1.toNat ∧ y.1.toNat < 128 :=
      fun y hy => htype y (List.mem_cons_of_mem _ hy)
    cases n with
    | zero => exact ⟨rfl, fun h => absurd h (Nat.not_lt_zero _)⟩
    | succ n =>
      cases hm : marshalBinary x.2 with
      | error text =>
        -- only the type was written: the receiver stops here
        have hshare : share marshalBinary x = [x.1] := by rw [share, hm]
        have hstop : marshals marshalBinary x = false := by rw [marshals, hm]; rfl
        obtain ⟨what, herr⟩ := decodeTLV_dangling marshalBinary unmarshalBinary x.1 htypes
        rw [sent_cons, hshare, List.singleton_append, received, herr, leftOver,
          List.takeWhile_cons_of_neg (by rw [hstop]; decide),
          List.dropWhile_cons_of_neg (by rw [hstop]; decide)]
        exact ⟨rfl, fun _ => ⟨what, rfl⟩⟩
      | ok buf =>
        have hshare : share marshalBinary x = encode x.1 buf := by rw [share, hm]
        have hgo : marshals marshalBinary x = true := by rw [marshals, hm]; rfl
        obtain ⟨hsmall, hback⟩ := hinverse x List.mem_cons_self buf hm
        have hread := decodeTLV_encode unmarshalBinary x.1 hsmall hback
          (sent marshalBinary values)
        obtain ⟨hvalues, herror⟩ :=
          ih (fun y hy => hinverse y (List.mem_cons_of_mem _ hy)) htypes n
        rw [sent_cons, hshare, received, hread, List.takeWhile_cons_of_pos hgo, leftOver,
          List.dropWhile_cons_of_pos hgo]
        refine ⟨?_, fun h => herror ?_⟩
        · rw [List.take_succ_cons, ← hvalues]
        · rw [List.length_cons] at h
          omega

/-- Strings that must not be empty. -/
def nonEmpty (b : Bytes) : Except String Bytes := if b = [] then .error "empty" else .ok b

/-- Three values, the second of which does not marshal: one is received. -/
theorem encode_stream_second_fails :
    (received nonEmpty 3 (sent nonEmpty [(1, [7]), (2, []), (3, [8])])).1 = [(1, [7])] ∧
    ∃ text, (received nonEmpty 3 (sent nonEmpty [(1, [7]), (2, []), (3, [8])])).2
      = (some (.err text), [1, 8]) := by
  have h := encode_stream_until_failure nonEmpty nonEmpty [(1, [7]), (2, []), (3, [8])]
    (by
      intro x hx buf hbuf
      have hlen : x.2.length ≤ 1 :=
        (by decide : ∀ x ∈ [((1 : UInt8), ([7] : Bytes)), (2, []), (3, [8])], x.2.length ≤ 1) x hx
      have hmax : maxMessageSize = 1073741824 := rfl
      by_cases hnil : x.2 = []
      · rw [nonEmpty, if_pos hnil] at hbuf
        cases hbuf
      · have hsame := hbuf
        rw [nonEmpty, if_neg hnil] at hbuf
        cases hbuf
        exact ⟨by omega, hsame⟩)
    (by decide) 3
  exact ⟨h.1, h.2 (by decide)⟩

/-- A receiver that goes on: the first call ends in an error, and the next one panics, since what it
    takes for a length are eight bytes of a value. -/
example :
    (received nonEmpty 1 (sent nonEmpty [(2, []), (3, List.replicate 8 255)])).2.2
        = 8 :: List.replicate 8 255 ∧
      (received nonEmpty 1 (8 :: List.replicate 8 255)).2.1 = some .panicked := by
  decide +kernel

end InfluxCluster.Tlv
