import Mathlib.Data.List.Basic

namespace Exsim.Data

/-! # Bitmaps over 64-bit words -/

namespace Word

/-- Bit `b` of a word. -/
def bit (word : UInt64) (b : Nat) : Bool := word.toBitVec.getLsbD b

variable {word : UInt64} {shift : UInt64} {b : Nat}

theorem bit_eq_false_of_le (large : 64 ≤ b) : bit word b = false :=
  BitVec.getLsbD_of_ge _ _ large

@[simp] theorem bit_or (left right : UInt64) :
    bit (left ||| right) b = (bit left b || bit right b) := by
  simp [bit]

@[simp] theorem bit_and (left right : UInt64) :
    bit (left &&& right) b = (bit left b && bit right b) := by
  simp [bit]

theorem bit_not (small : b < 64) : bit (~~~word) b = !bit word b := by
  simp [bit, small]

theorem bit_one_shiftLeft (small : shift.toNat < 64) :
    bit (1 <<< shift) b = decide (b = shift.toNat) := by
  have amount : shift.toNat % 64 = shift.toNat := Nat.mod_eq_of_lt small
  simp only [bit, UInt64.toBitVec_shiftLeft, UInt64.toBitVec_one, BitVec.shiftLeft_eq',
    BitVec.getLsbD_shiftLeft, BitVec.toNat_umod, UInt64.toNat_toBitVec, BitVec.getLsbD_one]
  grind

theorem eq_zero_iff : word = 0 ↔ ∀ b, bit word b = false := by
  constructor
  · rintro rfl b
    simp [bit]
  · intro clear
    apply UInt64.toBitVec_inj.mp
    apply BitVec.eq_of_getLsbD_eq
    intro b _
    simpa [bit] using clear b

/-- `(word & (1 << b)) != 0` tests the bit. -/
theorem and_shift_ne_zero (small : shift.toNat < 64) :
    ((word &&& (1 <<< shift)) != 0) = bit word shift.toNat := by
  cases value : bit word shift.toNat with
  | true =>
      apply bne_iff_ne.mpr
      intro zero
      have clear := eq_zero_iff.mp zero shift.toNat
      simp [bit_one_shiftLeft small, value] at clear
  | false =>
      apply bne_eq_false_iff_eq.mpr
      apply eq_zero_iff.mpr
      intro b
      simp only [bit_and, bit_one_shiftLeft small]
      grind

theorem bit_ctz (nonzero : word ≠ 0) : bit word word.toBitVec.ctz.toNat = true :=
  BitVec.getLsbD_true_ctz_of_ne_zero fun zero => nonzero (UInt64.toBitVec_inj.mp zero)

theorem ctz_le (set : bit word b = true) : word.toBitVec.ctz.toNat ≤ b := by
  apply Nat.le_of_not_lt
  intro below
  have clear := BitVec.getLsbD_false_of_lt_ctz below
  rw [bit] at set
  rw [set] at clear
  contradiction

theorem clz_lt (nonzero : word ≠ 0) : word.toBitVec.clz.toNat < 64 := by
  have small := BitVec.clz_lt_iff_ne_zero.mpr fun zero : word.toBitVec = 0#64 =>
    nonzero (UInt64.toBitVec_inj.mp zero)
  simpa using BitVec.lt_def.mp small

theorem bit_clz (nonzero : word ≠ 0) : bit word (63 - word.toBitVec.clz.toNat) = true := by
  have set := BitVec.getLsbD_true_clz_of_ne_zero (by decide)
    fun zero : word.toBitVec = 0#64 => nonzero (UInt64.toBitVec_inj.mp zero)
  simpa [bit] using set

theorem le_clz (set : bit word b = true) : b ≤ 63 - word.toBitVec.clz.toNat := by
  have value := BitVec.toNat_lt_two_pow_sub_clz (x := word.toBitVec)
  by_contra above
  have clear : word.toBitVec.getLsbD b = false := by
    rw [← BitVec.testBit_toNat]
    exact Nat.testBit_lt_two_pow
      (Nat.lt_of_lt_of_le value (Nat.pow_le_pow_right (by decide) (by omega)))
  rw [bit] at set
  rw [set] at clear
  contradiction

end Word

/-- Bit `i` of a bitmap stored in 64-bit words; `false` past its end. -/
def testBit (bitmap : Array UInt64) (i : Nat) : Bool :=
  match bitmap[i / 64]? with
  | some word => Word.bit word (i % 64)
  | none => false

variable {bitmap : Array UInt64} {word : UInt64} {i j : Nat}

theorem testBit_of_getElem? (found : bitmap[i / 64]? = some word) :
    testBit bitmap i = Word.bit word (i % 64) := by
  simp only [testBit, found]

theorem testBit_replicate_zero (words i : Nat) : testBit (Array.replicate words 0) i = false := by
  simp only [testBit, Array.getElem?_replicate]
  by_cases inside : i / 64 < words
  · simp [inside, Word.bit]
  · simp [inside]

/-- Rewriting one word changes exactly the bits of that word. -/
theorem testBit_setIfInBounds (found : bitmap[i / 64]? = some word) (updated : UInt64) :
    testBit (bitmap.setIfInBounds (i / 64) updated) j =
      if j / 64 = i / 64 then Word.bit updated (j % 64) else testBit bitmap j := by
  have inside : i / 64 < bitmap.size := (Array.getElem?_eq_some_iff.mp found).1
  by_cases same : j / 64 = i / 64
  · simp only [testBit, same, Array.getElem?_setIfInBounds_self, inside, ↓reduceIte]
  · simp only [testBit, Array.getElem?_setIfInBounds_ne (Ne.symm same), if_neg same]

theorem testBit_setBit (found : bitmap[i / 64]? = some word) {shift : UInt64}
    (amount : shift.toNat = i % 64) :
    testBit (bitmap.setIfInBounds (i / 64) (word ||| (1 <<< shift))) j =
      (decide (j = i) || testBit bitmap j) := by
  have small : shift.toNat < 64 := by omega
  rw [testBit_setIfInBounds found]
  by_cases same : j / 64 = i / 64
  · have old : testBit bitmap j = Word.bit word (j % 64) := testBit_of_getElem? (same ▸ found)
    rw [if_pos same, Word.bit_or, Word.bit_one_shiftLeft small, old, Bool.or_comm]
    congr 1
    apply decide_eq_decide.mpr
    omega
  · have different : j ≠ i := fun equal => same (by rw [equal])
    simp [same, different]

theorem testBit_clearBit (found : bitmap[i / 64]? = some word) {shift : UInt64}
    (amount : shift.toNat = i % 64) :
    testBit (bitmap.setIfInBounds (i / 64) (word &&& ~~~(1 <<< shift))) j =
      (!decide (j = i) && testBit bitmap j) := by
  have small : shift.toNat < 64 := by omega
  rw [testBit_setIfInBounds found]
  by_cases same : j / 64 = i / 64
  · have old : testBit bitmap j = Word.bit word (j % 64) := testBit_of_getElem? (same ▸ found)
    rw [if_pos same, Word.bit_and, Word.bit_not (Nat.mod_lt _ (by decide)),
      Word.bit_one_shiftLeft small, old, Bool.and_comm]
    congr 2
    apply decide_eq_decide.mpr
    omega
  · have different : j ≠ i := fun equal => same (by rw [equal])
    simp [same, different]

end Exsim.Data
