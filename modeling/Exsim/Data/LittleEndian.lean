import Mathlib.Data.List.Basic
import Mathlib.Tactic.Ring

namespace Exsim.Data

/-! # Little-endian byte strings

`toBytes width value` is the `width`-byte little-endian image of a natural and
`ofBytes` reads one back.  They are inverse on values that fit and on strings of
the right length.
-/

def toBytes : Nat → Nat → List UInt8
  | 0, _ => []
  | width + 1, value => UInt8.ofNat value :: toBytes width (value / 256)

def ofBytes : List UInt8 → Nat
  | [] => 0
  | byte :: rest => byte.toNat + 256 * ofBytes rest

@[simp] theorem toBytes_length (width value : Nat) : (toBytes width value).length = width := by
  induction width generalizing value with
  | zero => rfl
  | succ width ih => simp only [toBytes, List.length_cons, ih]

theorem ofBytes_lt (bytes : List UInt8) : ofBytes bytes < 256 ^ bytes.length := by
  induction bytes with
  | nil => simp [ofBytes]
  | cons byte rest ih =>
      have small : byte.toNat < 256 := byte.toNat_lt
      simp only [ofBytes, List.length_cons, Nat.pow_succ]
      omega

theorem ofBytes_toBytes {width value : Nat} (fits : value < 256 ^ width) :
    ofBytes (toBytes width value) = value := by
  induction width generalizing value with
  | zero =>
      simp only [Nat.pow_zero, Nat.lt_one_iff] at fits
      simp only [toBytes, ofBytes, fits]
  | succ width ih =>
      have tail : value / 256 < 256 ^ width := by
        rw [Nat.pow_succ] at fits
        exact Nat.div_lt_of_lt_mul (by omega)
      simp only [toBytes, ofBytes, ih tail, UInt8.toNat_ofNat']
      omega

theorem toBytes_ofBytes (bytes : List UInt8) : toBytes bytes.length (ofBytes bytes) = bytes := by
  induction bytes with
  | nil => rfl
  | cons byte rest ih =>
      have small : byte.toNat < 256 := byte.toNat_lt
      have low : UInt8.ofNat (byte.toNat + 256 * ofBytes rest) = byte := by
        apply UInt8.toNat_inj.mp
        simp only [UInt8.toNat_ofNat']
        omega
      have high : (byte.toNat + 256 * ofBytes rest) / 256 = ofBytes rest := by omega
      simp only [List.length_cons, ofBytes, toBytes, low, high, ih]

theorem toBytes_injective {width left right : Nat} (leftFits : left < 256 ^ width)
    (rightFits : right < 256 ^ width) (same : toBytes width left = toBytes width right) :
    left = right := by
  rw [← ofBytes_toBytes leftFits, same, ofBytes_toBytes rightFits]

end Exsim.Data
