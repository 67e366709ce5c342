/-
  The wire format of protobuf, as far as messages of numbers, texts, bytes and messages need it.

  A message is a list of FIELDS, each under a number: a key, which says the number and the kind of
  the value, and the value.  A number is written in groups of seven bits, the lowest first, with the
  top bit set in all groups but the last; that is its list of digits in base 128.  Bytes are written
  behind their length.  A field may come again: a repeated field has all of its values, another one
  has the last (`List.getLast?`).

  Whatever is written is read back (`parse_encode`), and a reader of single fields sees only the
  fields of its number and kind (`uints_of`, `blobs_of`).  Numbers are not limited to 64 bits here,
  and there are no fields of fixed width and no groups.
-/
import InfluxCluster.Lib.Bytes
import Mathlib.Data.Nat.Digits.Lemmas

namespace InfluxCluster.Lib.Protobuf

/-! ## Numbers -/

/-- Digits in base 128, the lowest first, with the mark of those that are not the last. -/
def groups : List Nat → Bytes
  | [] => [0]
  | [d] => [UInt8.ofNat d]
  | d :: ds => UInt8.ofNat (d + 128) :: groups ds

/-- A number on the wire. -/
def varint (n : Nat) : Bytes := groups (Nat.digits 128 n)

/-- The number at the start, and what follows it. -/
def readVarint : Bytes → Option (Nat × Bytes)
  | [] => none
  | b :: rest =>
    if b.toNat < 128 then some (b.toNat, rest)
    else (readVarint rest).map fun x => (b.toNat - 128 + 128 * x.1, x.2)

theorem toNat_ofNat {d : Nat} (hd : d < 256) : (UInt8.ofNat d).toNat = d := by
  rw [UInt8.toNat_ofNat']
  exact Nat.mod_eq_of_lt hd

/-- Groups of seven bits are read back, with what follows left alone. -/
theorem readVarint_groups {ds : List Nat} (hds : ∀ d ∈ ds, d < 128) (rest : Bytes) :
    readVarint (groups ds ++ rest) = some (Nat.ofDigits 128 ds, rest) := by
  -- as `groups` goes: no digit at all, the last one, and one that others follow
  induction ds using groups.induct with
  | case1 => rfl
  | case2 d =>
    have hd : d < 128 := hds d List.mem_cons_self
    have hto : (UInt8.ofNat d).toNat = d := toNat_ofNat (by omega)
    rw [groups, List.singleton_append, readVarint, hto, if_pos hd, Nat.ofDigits_singleton]
  | case3 d ds hne ih =>
    have hd : d < 128 := hds d List.mem_cons_self
    have hto : (UInt8.ofNat (d + 128)).toNat = d + 128 := toNat_ofNat (by omega)
    have hrest := ih fun d' hd' => hds d' (List.mem_cons_of_mem d hd')
    rw [groups, List.cons_append, readVarint, hto, if_neg (by omega), hrest]
    · rw [Option.map_some, Nat.add_sub_cancel, Nat.ofDigits_cons]
    · exact hne

/-- **A number is read back.** -/
theorem readVarint_varint (n : Nat) (rest : Bytes) :
    readVarint (varint n ++ rest) = some (n, rest) := by
  rw [varint, readVarint_groups fun d hd => Nat.digits_lt_base (by omega) hd, Nat.ofDigits_digits]

/-- A signed number of 32 bits; one below zero is written as 64 bits in two's complement. -/
def ofInt32 (x : Int32) : Nat := (x.toInt % 2 ^ 64).toNat

/-- The low 32 bits. -/
def toInt32 (n : Nat) : Int32 := Int32.ofInt n

@[simp] theorem toInt32_ofInt32 (x : Int32) : toInt32 (ofInt32 x) = x := by
  have hle := Int32.le_toInt x
  have hlt := Int32.toInt_lt x
  rw [toInt32, ofInt32, Int32.ofInt_eq_iff_bmod_eq_toInt, Int.bmod_def]
  omega

/-! ## Fields -/

/-- What is in a field. -/
inductive Value
  | varint (n : Nat)
  | bytes (b : Bytes)
  deriving DecidableEq

/-- A field of a message. -/
structure Field where
  num : Nat
  value : Value
  deriving DecidableEq

/-- A field on the wire: the kind is in the low three bits of the key. -/
def Field.encode (f : Field) : Bytes :=
  match f.value with
  | .varint n => varint (f.num * 8) ++ varint n
  | .bytes b => varint (f.num * 8 + 2) ++ (varint b.length ++ b)

/-- The value of that kind at the start, and what follows it. -/
def readValue (kind : Nat) (b : Bytes) : Option (Value × Bytes) :=
  match kind with
  | 0 => (readVarint b).map fun x => (.varint x.1, x.2)
  | 2 =>
    match readVarint b with
    | none => none
    | some (n, rest) =>
      if n ≤ rest.length then some (.bytes (rest.take n), rest.drop n) else none
  | _ => none

/-- The field at the start, and what follows it. -/
def readField (b : Bytes) : Option (Field × Bytes) :=
  match readVarint b with
  | none => none
  | some (key, rest) => (readValue (key % 8) rest).map fun x => (⟨key / 8, x.1⟩, x.2)

/-- **A field is read back.** -/
theorem readField_encode (f : Field) (rest : Bytes) :
    readField (f.encode ++ rest) = some (f, rest) := by
  obtain ⟨num, value⟩ := f
  rw [readField, Field.encode]
  cases value with
  | varint n =>
    rw [List.append_assoc, readVarint_varint]
    dsimp only
    rw [Nat.mul_mod_left, Nat.mul_div_cancel num (by omega : 0 < 8), readValue, readVarint_varint]
    rfl
  | bytes b =>
    have hkind : (num * 8 + 2) % 8 = 2 := by omega
    have hnum : (num * 8 + 2) / 8 = num := by omega
    rw [List.append_assoc, List.append_assoc, readVarint_varint]
    dsimp only
    rw [hkind, hnum, readValue, readVarint_varint]
    dsimp only
    rw [if_pos (by rw [List.length_append]; omega), List.take_left, List.drop_left]
    rfl

/-! ## Messages -/

/-- A message on the wire. -/
def encode (fs : List Field) : Bytes := fs.flatMap Field.encode

/-- So many fields at most. -/
def parseFields : Nat → Bytes → Option (List Field)
  | _, [] => some []
  | 0, _ :: _ => none
  | fuel + 1, b :: rest =>
    match readField (b :: rest) with
    | none => none
    | some (f, rest) => (parseFields fuel rest).map (f :: ·)

/-- The fields of a message.  Every field takes a byte. -/
def parse (b : Bytes) : Option (List Field) := parseFields b.length b

/-- A field has bytes, so reading it makes progress. -/
theorem Field.encode_ne_nil (f : Field) : f.encode ≠ [] := by
  intro h
  have hread := readField_encode f []
  rw [h] at hread
  cases hread

/-- **What has been encoded is parsed again**, by induction on the fields. -/
theorem parseFields_encode (fs : List Field) {fuel : Nat} (hfuel : (encode fs).length ≤ fuel) :
    parseFields fuel (encode fs) = some fs := by
  induction fs generalizing fuel with
  | nil => rw [encode, List.flatMap_nil, parseFields]
  | cons f fs ih =>
    have hcons : encode (f :: fs) = f.encode ++ encode fs := List.flatMap_cons
    rw [hcons] at hfuel ⊢
    obtain ⟨b, bs, hb⟩ := List.exists_cons_of_ne_nil f.encode_ne_nil
    have hread := readField_encode f (encode fs)
    rw [hb, List.cons_append, List.length_cons, List.length_append] at hfuel
    rw [hb, List.cons_append] at hread ⊢
    obtain ⟨fuel, rfl⟩ : ∃ n, fuel = n + 1 := ⟨fuel - 1, by omega⟩
    rw [parseFields, hread]
    dsimp only
    rw [ih (by omega)]
    rfl

/-- **A message is read back, field by field.** -/
theorem parse_encode (fs : List Field) : parse (encode fs) = some fs :=
  parseFields_encode fs (Nat.le_refl _)

/-! ## Fields of one number -/

/-- Numbers under one number. -/
def ofUints (num : Nat) (l : List Nat) : List Field := l.map fun n => ⟨num, .varint n⟩

/-- Bytes under one number. -/
def ofBlobs (num : Nat) (l : List Bytes) : List Field := l.map fun b => ⟨num, .bytes b⟩

/-- The numbers under `num`. -/
def uints (num : Nat) (fs : List Field) : List Nat :=
  fs.filterMap fun
    | ⟨i, .varint n⟩ => if i = num then some n else none
    | ⟨_, .bytes _⟩ => none

/-- The bytes under `num`. -/
def blobs (num : Nat) (fs : List Field) : List Bytes :=
  fs.filterMap fun
    | ⟨_, .varint _⟩ => none
    | ⟨i, .bytes b⟩ => if i = num then some b else none

@[simp] theorem uints_append (num : Nat) (fs gs : List Field) :
    uints num (fs ++ gs) = uints num fs ++ uints num gs := List.filterMap_append

@[simp] theorem blobs_append (num : Nat) (fs gs : List Field) :
    blobs num (fs ++ gs) = blobs num fs ++ blobs num gs := List.filterMap_append

@[simp] theorem uints_ofUints (num i : Nat) (l : List Nat) :
    uints num (ofUints i l) = if i = num then l else [] := by
  rw [uints, ofUints, List.filterMap_map]
  by_cases h : i = num
  · rw [if_pos h]
    exact (List.filterMap_congr fun n _ => if_pos h).trans List.filterMap_some
  · rw [if_neg h]
    exact List.filterMap_eq_nil_iff.mpr fun n _ => if_neg h

@[simp] theorem blobs_ofBlobs (num i : Nat) (l : List Bytes) :
    blobs num (ofBlobs i l) = if i = num then l else [] := by
  rw [blobs, ofBlobs, List.filterMap_map]
  by_cases h : i = num
  · rw [if_pos h]
    exact (List.filterMap_congr fun b _ => if_pos h).trans List.filterMap_some
  · rw [if_neg h]
    exact List.filterMap_eq_nil_iff.mpr fun b _ => if_neg h

@[simp] theorem uints_ofBlobs (num i : Nat) (l : List Bytes) : uints num (ofBlobs i l) = [] := by
  rw [uints, ofBlobs, List.filterMap_map]
  exact List.filterMap_eq_nil_iff.mpr fun b _ => rfl

@[simp] theorem blobs_ofUints (num i : Nat) (l : List Nat) : blobs num (ofUints i l) = [] := by
  rw [blobs, ofUints, List.filterMap_map]
  exact List.filterMap_eq_nil_iff.mpr fun n _ => rfl

/-- A field that is not repeated. -/
@[simp] theorem getLast?_toList {α : Type} (o : Option α) : o.toList.getLast? = o := by
  cases o with
  | none => rfl
  | some a => rfl

/-! ## Texts -/

/-- A text, as bytes. -/
def utf8 (s : String) : Bytes := s.toUTF8.data.toList

/-- The text that the bytes are. -/
def ofUtf8 (b : Bytes) : Option String := String.fromUTF8? ⟨b.toArray⟩

@[simp] theorem ofUtf8_utf8 (s : String) : ofUtf8 (utf8 s) = some s := by
  have hbytes : (⟨(utf8 s).toArray⟩ : ByteArray) = s.toUTF8 := by
    rw [utf8, Array.toArray_toList]
  rw [ofUtf8, hbytes, String.fromUTF8?, String.toUTF8_eq_toByteArray, dif_pos s.isValidUTF8]
  rfl

/-- Texts that all can be read. -/
def texts (l : List Bytes) : Option (List String) := l.mapM ofUtf8

@[simp] theorem texts_utf8 (l : List String) : texts (l.map utf8) = some l := by
  induction l with
  | nil => rfl
  | cons s l ih =>
    rw [texts] at ih
    rw [texts, List.map_cons, List.mapM_cons, ofUtf8_utf8, ih]
    rfl

end InfluxCluster.Lib.Protobuf
