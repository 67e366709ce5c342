/-
  Byte strings: fixed-width big-endian numbers and in-place overwriting.

  A disk format is built from three moves: write a number as `w` bytes, read `w` bytes back as a
  number, and OVERWRITE a stretch of an existing string.  This file has the three, with the facts
  a format proof asks for:

  * `beBytes w n` has exactly `w` bytes, whatever `n` is (`beBytes_length`);
  * `beNat (beBytes w n) = n` as soon as `n < 256 ^ w` (`beNat_beBytes`) — the bound is the only
    condition, so a caller has to show it once, from the sizes it keeps — and the other way round
    every string of `w` bytes IS the encoding of the number it stands for (`beBytes_beNat`);
  * `overwrite data off b` replaces from `off` on and EXTENDS the string when `b` runs past its
    end (`overwrite_at`), which is how a footer is rewritten and a record appended by one move.
-/
import Mathlib.Data.List.Basic
import Mathlib.Tactic.Ring

namespace InfluxCluster.Lib

/-- A byte string. -/
abbrev Bytes := List UInt8

/-! ## Big-endian numbers of a fixed width -/

/-- The `w` big-endian bytes of `n` (of `n mod 256 ^ w` when `n` is too large). -/
def beBytes : Nat → Nat → Bytes
  | 0, _ => []
  | w + 1, n => UInt8.ofNat (n / 256 ^ w) :: beBytes w n

/-- The number a big-endian byte string stands for. -/
def beNat (b : Bytes) : Nat := b.foldl (fun acc x => acc * 256 + x.toNat) 0

@[simp] theorem beBytes_length (w n : Nat) : (beBytes w n).length = w := by
  induction w with
  | zero => rfl
  | succ w ih => rw [beBytes, List.length_cons, ih]

/-- Reading on with an accumulator: what was read so far is shifted past the new bytes. -/
theorem beNat_foldl (b : Bytes) : ∀ acc : Nat,
    b.foldl (fun acc x => acc * 256 + x.toNat) acc = acc * 256 ^ b.length + beNat b := by
  induction b with
  | nil => intro acc; simp [beNat]
  | cons x b ih =>
    intro acc
    have hx : beNat (x :: b) = x.toNat * 256 ^ b.length + beNat b := by
      rw [show beNat (x :: b) = b.foldl (fun acc x => acc * 256 + x.toNat) (0 * 256 + x.toNat)
        from rfl, ih, Nat.zero_mul, Nat.zero_add]
    rw [List.foldl_cons, ih, hx, List.length_cons, pow_succ]
    ring

theorem beNat_cons (x : UInt8) (b : Bytes) :
    beNat (x :: b) = x.toNat * 256 ^ b.length + beNat b := by
  rw [beNat, List.foldl_cons, beNat_foldl, Nat.zero_mul, Nat.zero_add]

/-- Reading back loses exactly what the width could not hold. -/
theorem beNat_beBytes_mod (w n : Nat) : beNat (beBytes w n) = n % 256 ^ w := by
  induction w with
  | zero => rw [beBytes, pow_zero, Nat.mod_one]; rfl
  | succ w ih =>
    have hbyte : (UInt8.ofNat (n / 256 ^ w)).toNat = n / 256 ^ w % 256 := UInt8.toNat_ofNat'
    rw [beBytes, beNat_cons, ih, beBytes_length, hbyte, pow_succ (256 : Nat) w, Nat.mod_mul,
      Nat.mul_comm (256 ^ w), Nat.add_comm]

/-- A number that fits its width is read back unchanged. -/
theorem beNat_beBytes {w n : Nat} (h : n < 256 ^ w) : beNat (beBytes w n) = n := by
  rw [beNat_beBytes_mod, Nat.mod_eq_of_lt h]

/-- A string of `w` bytes stands for a number below `256 ^ w`. -/
theorem beNat_lt (b : Bytes) : beNat b < 256 ^ b.length := by
  induction b with
  | nil => exact Nat.one_pos
  | cons x b ih =>
    rw [beNat_cons, List.length_cons, pow_succ]
    have hx : x.toNat ≤ 255 := Nat.le_of_lt_succ x.toNat_lt
    calc x.toNat * 256 ^ b.length + beNat b
        < 255 * 256 ^ b.length + 256 ^ b.length :=
          Nat.add_lt_add_of_le_of_lt (Nat.mul_le_mul_right _ hx) ih
      _ = 256 ^ b.length * 256 := by ring

/-- Whole multiples of `256 ^ w` do not reach the `w` bytes written. -/
theorem beBytes_add_mul {v w : Nat} (h : w ≤ v) (m n : Nat) :
    beBytes w (m * 256 ^ v + n) = beBytes w n := by
  induction w with
  | zero => rfl
  | succ w ih =>
    rw [beBytes, beBytes, ih (by omega)]
    congr 1
    apply UInt8.toNat_inj.mp
    have hsplit : m * 256 ^ v + n = n + 256 ^ w * (256 * (m * 256 ^ (v - (w + 1)))) := by
      rw [show (256 : Nat) ^ v = 256 ^ w * 256 * 256 ^ (v - (w + 1)) by
        rw [← pow_succ, ← pow_add]; congr 1; omega]
      ring
    rw [UInt8.toNat_ofNat', UInt8.toNat_ofNat', hsplit,
      Nat.add_mul_div_left _ _ (Nat.pow_pos (by decide)), Nat.add_mul_mod_self_left]

/-- Writing back what was read gives the same bytes: the codec is onto its width. -/
theorem beBytes_beNat (b : Bytes) : beBytes b.length (beNat b) = b := by
  induction b with
  | nil => rfl
  | cons x b ih =>
    rw [List.length_cons, beBytes, beNat_cons, beBytes_add_mul (Nat.le_refl _), ih,
      Nat.mul_comm, Nat.mul_add_div (Nat.pow_pos (by decide)), Nat.div_eq_of_lt (beNat_lt b),
      Nat.add_zero, UInt8.ofNat_toNat]

/-! ## Overwriting -/

/-- Put `b` over `data` from offset `off` on: what `b` covers is replaced, a `b` that runs past the
    end extends the string, and a gap before `off` is filled with zeros.  Writing nothing changes
    nothing. -/
def overwrite (data : Bytes) (off : Nat) (b : Bytes) : Bytes :=
  if b = [] then data
  else data.take off ++ List.replicate (off - data.length) 0 ++ b ++ data.drop (off + b.length)

@[simp] theorem overwrite_nil (data : Bytes) (off : Nat) : overwrite data off [] = data := by
  rw [overwrite, if_pos rfl]

/-- Overwriting at a seam: the part before the seam stays, what follows `b` stays. -/
theorem overwrite_at (a c b : Bytes) :
    overwrite (a ++ c) a.length b = a ++ b ++ c.drop b.length := by
  by_cases hb : b = []
  · subst hb; simp
  · rw [overwrite, if_neg hb, List.take_left, List.drop_append,
      show a.length - (a ++ c).length = 0 by rw [List.length_append]; omega,
      List.drop_eq_nil_of_le (by omega : a.length ≤ a.length + b.length),
      show a.length + b.length - a.length = b.length by omega]
    simp

/-- Overwriting the whole tail after a seam with something at least as long. -/
theorem overwrite_tail {a c b : Bytes} (h : c.length ≤ b.length) :
    overwrite (a ++ c) a.length b = a ++ b := by
  rw [overwrite_at, List.drop_eq_nil_of_le h, List.append_nil]

/-- Appending is overwriting at the end. -/
theorem overwrite_end (a b : Bytes) : overwrite a a.length b = a ++ b := by
  have h := overwrite_tail (a := a) (c := []) (b := b) (Nat.zero_le _)
  rwa [List.append_nil] at h

end InfluxCluster.Lib
