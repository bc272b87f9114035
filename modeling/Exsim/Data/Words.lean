import Mathlib.Algebra.GroupWithZero.Nat
import Mathlib.Algebra.Ring.Int.Defs
import Mathlib.Data.Int.Basic

namespace Exsim.Data

/-! # Machine words as integers

Signed 64-bit arithmetic that does not overflow, and unsigned minima.
-/

section Unsigned

variable {left right : UInt32}

theorem toNat_min : (min left right).toNat = min left.toNat right.toNat := by
  have cases : min left right = if left ≤ right then left else right := rfl
  rw [cases]
  split
  · rename_i le
    exact (Nat.min_eq_left (UInt32.le_iff_toNat_le.mp le)).symm
  · rename_i gt
    rw [UInt32.le_iff_toNat_le] at gt
    exact (Nat.min_eq_right (by omega)).symm

theorem toNat_sub_min : (left - min left right).toNat = left.toNat - right.toNat := by
  have le : min left right ≤ left :=
    UInt32.le_iff_toNat_le.mpr (by rw [toNat_min]; exact Nat.min_le_left _ _)
  rw [UInt32.toNat_sub_of_le _ _ le, toNat_min]
  omega

/-- What is taken from `left` while some of it remains is all there was to take. -/
theorem le_min_of_sub_ne_zero (remains : right - min left right ≠ 0) : left ≤ min left right := by
  rw [UInt32.le_iff_toNat_le, toNat_min]
  refine Nat.le_min.mpr ⟨Nat.le_refl _, Nat.le_of_lt (Nat.lt_of_not_le fun small => remains ?_)⟩
  have both : min left right = right := by
    apply UInt32.toNat_inj.mp
    rw [toNat_min, Nat.min_eq_right small]
  rw [both, UInt32.sub_self]

/-- The smaller of two numbers, taken in two parts. -/
theorem min_add_of_lt {more : UInt32} (less : left < right)
    (small : left.toNat + more.toNat < 2 ^ 32) :
    min right (left + more) = left + min (right - left) more := by
  have less := UInt32.lt_iff_toNat_lt.mp less
  have bound := right.toNat_lt
  have remains : (right - left).toNat = right.toNat - left.toNat :=
    UInt32.toNat_sub_of_le _ _ (UInt32.le_iff_toNat_le.mpr (Nat.le_of_lt less))
  apply UInt32.toNat_inj.mp
  rw [toNat_min, UInt32.toNat_add, UInt32.toNat_add, toNat_min, remains, Nat.mod_eq_of_lt small,
    Nat.mod_eq_of_lt (by omega)]
  omega

/-- `n > 0 ? n - 1 : n`. -/
theorem toNat_decrement (n : UInt32) : (if n > 0 then n - 1 else n).toNat = n.toNat - 1 := by
  split
  · rename_i positive
    have one : (1 : UInt32) ≤ n := by
      rw [gt_iff_lt, UInt32.lt_iff_toNat_lt] at positive
      exact UInt32.le_iff_toNat_le.mpr positive
    exact UInt32.toNat_sub_of_le _ _ one
  · rename_i zero
    rw [gt_iff_lt, UInt32.lt_iff_toNat_lt, UInt32.toNat_zero] at zero
    omega

/-- Numbers below the word size keep apart. -/
theorem ofNat_ne {j k : Nat} (less : j < k) (bound : k < 2 ^ 64) :
    UInt64.ofNat j ≠ UInt64.ofNat k := by
  intro same
  have values := congrArg UInt64.toNat same
  rw [UInt64.toNat_ofNat', UInt64.toNat_ofNat', Nat.mod_eq_of_lt bound,
    Nat.mod_eq_of_lt (by omega)] at values
  omega

end Unsigned

section Signed

variable {left right : Int64}

theorem toUInt64_toNat (left : Int64) (nonnegative : 0 ≤ left.toInt) :
    (left.toUInt64.toNat : Int) = left.toInt := by
  have value : left.toInt = left.toBitVec.toInt := rfl
  have bits : left.toUInt64.toNat = left.toBitVec.toNat := rfl
  rw [value, BitVec.toInt_eq_toNat_cond] at nonnegative ⊢
  have bound := left.toBitVec.isLt
  rw [bits]
  split at nonnegative
  · rename_i small
    rw [if_pos small]
  · omega

/-- A difference of ordered non-negative values does not wrap. -/
theorem toInt_sub_of_le (nonnegative : 0 ≤ right.toInt) (order : right.toInt ≤ left.toInt) :
    (left - right).toInt = left.toInt - right.toInt := by
  have upper := left.toInt_lt
  rw [Int64.toInt_sub, Int.bmod_eq_of_le] <;> omega

theorem toInt_toInt64_of_lt {word : UInt64} (small : word.toNat < 2 ^ 63) :
    word.toInt64.toInt = (word.toNat : Int) := by
  have value : word.toInt64.toInt = word.toBitVec.toInt := rfl
  have bits : word.toNat = word.toBitVec.toNat := rfl
  rw [value, bits, BitVec.toInt_eq_toNat_of_lt]
  omega

theorem toInt_add_of_lt (lower : -(2 ^ 63) ≤ left.toInt + right.toInt)
    (upper : left.toInt + right.toInt < 2 ^ 63) :
    (left + right).toInt = left.toInt + right.toInt := by
  rw [Int64.toInt_add, Int.bmod_eq_of_le] <;> omega

/-- A sum and a difference of words are those of their values but for turns of the modulus. -/
theorem toInt_add_wraps (left right : Int64) :
    ∃ turns : Int, (left + right).toInt = left.toInt + right.toInt - 2 ^ 64 * turns :=
  ⟨_, (Int64.toInt_add left right).trans (Int.bmod_eq_self_sub_mul_bdiv _ _)⟩

theorem toInt_sub_wraps (left right : Int64) :
    ∃ turns : Int, (left - right).toInt = left.toInt - right.toInt - 2 ^ 64 * turns :=
  ⟨_, (Int64.toInt_sub left right).trans (Int.bmod_eq_self_sub_mul_bdiv _ _)⟩

end Signed

end Exsim.Data
