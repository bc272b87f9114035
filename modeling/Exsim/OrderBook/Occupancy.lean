import Exsim.Core.OrderBook
import Exsim.Data.Bitmap
import Mathlib.Tactic.Ring

/-! # The occupancy bitmap and the cached best level of one side -/

namespace Exsim.Core

open Data

/-- The better of two level indices: the higher bid, the lower ask. -/
def AtLeastAsGood (isBuy : Bool) (best other : Nat) : Prop :=
  if isBuy then other ≤ best else best ≤ other

/-- The bitmap and the cached best level of a side stand for the set `occupied`
of level indices. -/
structure Occupancy (isBuy : Bool) (levels : Nat) (side : BookSide)
    (occupied : Nat → Prop) : Prop where
  size : side.bitmap.size = (levels + bitsPerWord - 1) / bitsPerWord
  bits : ∀ i, testBit side.bitmap i = true ↔ occupied i
  inside : ∀ i, occupied i → i < levels
  none : side.bestIdx = none → ∀ i, ¬ occupied i
  best : ∀ idx, side.bestIdx = some idx →
    occupied idx.toNat ∧ ∀ i, occupied i → AtLeastAsGood isBuy idx.toNat i

theorem Occupancy.congr {isBuy : Bool} {levels : Nat} {side : BookSide}
    {occupied occupied' : Nat → Prop} (occupancy : Occupancy isBuy levels side occupied)
    (same : ∀ i, occupied' i ↔ occupied i) :
    Occupancy isBuy levels side occupied' := by
  obtain rfl : occupied' = occupied := funext fun i => propext (same i)
  exact occupancy

/-- Only the bitmap and the cached best level matter. -/
theorem Occupancy.transfer {isBuy : Bool} {levels : Nat} {side side' : BookSide}
    {occupied : Nat → Prop} (occupancy : Occupancy isBuy levels side occupied)
    (bitmap : side'.bitmap = side.bitmap) (bestIdx : side'.bestIdx = side.bestIdx) :
    Occupancy isBuy levels side' occupied := by
  obtain ⟨size, bits, inside, none, best⟩ := occupancy
  constructor
  · rwa [bitmap]
  · rwa [bitmap]
  · exact inside
  · rwa [bestIdx]
  · rwa [bestIdx]

namespace BookSide

section Scan

variable {levelCount : UInt32} {words : List UInt64} {w : Nat}

/-- What the upward scan finds: nothing if every word is zero, else the lowest set bit. -/
theorem lowestFrom_spec
    (inside : ∀ (k : Nat) word b, words[k]? = some word → Word.bit word b = true →
      (w + k) * 64 + b < levelCount.toNat) :
    (lowestFrom levelCount words w = none →
      ∀ (k : Nat) word b, words[k]? = some word → Word.bit word b = false) ∧
    ∀ idx, lowestFrom levelCount words w = some idx →
      (∃ (k : Nat) (word : UInt64) (b : Nat), words[k]? = some word ∧ b < 64 ∧
        Word.bit word b = true ∧ idx.toNat = (w + k) * 64 + b) ∧
      ∀ (k : Nat) word b, words[k]? = some word → Word.bit word b = true →
      idx.toNat ≤ (w + k) * 64 + b := by
  induction words generalizing w with
  | nil => simp [lowestFrom]
  | cons word rest ih =>
      have restInside : ∀ (k : Nat) other b, rest[k]? = some other → Word.bit other b = true →
          (w + 1 + k) * 64 + b < levelCount.toNat := by
        intro k other b found set
        have bound := inside (k + 1) other b (by simpa using found) set
        rwa [show w + (k + 1) = w + 1 + k by omega] at bound
      obtain ⟨restNone, restSome⟩ := ih restInside
      by_cases zero : word = 0
      · have clear := Word.eq_zero_iff.mp zero
        have skip : lowestFrom levelCount (word :: rest) w =
            lowestFrom levelCount rest (w + 1) := by
          simp [lowestFrom, zero]
        rw [skip]
        constructor
        · intro stopped k other b found
          cases k with
          | zero => cases found; exact clear b
          | succ k => exact restNone stopped k other b (by simpa using found)
        · intro idx found
          obtain ⟨⟨k, other, b, here, small, set, value⟩, least⟩ := restSome idx found
          refine ⟨⟨k + 1, other, b, by simpa using here, small, set, by rw [value]; ring⟩, ?_⟩
          intro k other b here set
          cases k with
          | zero =>
              cases here
              simp [clear b] at set
          | succ k =>
              have bound := least k other b (by simpa using here) set
              rwa [show w + 1 + k = w + (k + 1) by omega] at bound
      · have set := Word.bit_ctz zero
        have small : word.toBitVec.ctz.toNat < 64 := by
          by_contra large
          simp [Word.bit_eq_false_of_le (not_lt.mp large)] at set
        have bound : w * 64 + word.toBitVec.ctz.toNat < levelCount.toNat := by
          simpa using inside 0 word _ rfl set
        have value : (UInt32.ofNat (w * bitsPerWord + word.toBitVec.ctz.toNat)).toNat =
            w * 64 + word.toBitVec.ctz.toNat := by
          have limit := levelCount.toNat_lt
          simp only [UInt32.toNat_ofNat', bitsPerWord]
          omega
        have accepted : UInt32.ofNat (w * bitsPerWord + word.toBitVec.ctz.toNat) < levelCount := by
          rw [UInt32.lt_iff_toNat_lt, value]
          exact bound
        have stop : lowestFrom levelCount (word :: rest) w =
            some (UInt32.ofNat (w * bitsPerWord + word.toBitVec.ctz.toNat)) := by
          have test : word ≠ 0 ∧ _ := ⟨zero, accepted⟩
          rw [lowestFrom,
            if_pos (by simpa only [Bool.and_eq_true, bne_iff_ne, decide_eq_true_eq] using test)]
        rw [stop]
        refine ⟨by simp, ?_⟩
        rintro idx ⟨rfl⟩
        rw [value]
        refine ⟨⟨0, word, _, rfl, small, set, by simp⟩, ?_⟩
        intro k other b here otherSet
        cases k with
        | zero =>
            cases here
            have least := Word.ctz_le otherSet
            omega
        | succ k => omega

/-- What the downward scan finds: nothing if every word is zero, else the highest set bit. -/
theorem highestFrom_spec (count : words.length = w)
    (inside : ∀ (k : Nat) word b, words[k]? = some word → Word.bit word b = true →
      (w - 1 - k) * 64 + b < levelCount.toNat) :
    (highestFrom levelCount words w = none →
      ∀ (k : Nat) word b, words[k]? = some word → Word.bit word b = false) ∧
    ∀ idx, highestFrom levelCount words w = some idx →
      (∃ (k : Nat) (word : UInt64) (b : Nat), words[k]? = some word ∧ b < 64 ∧
        Word.bit word b = true ∧ idx.toNat = (w - 1 - k) * 64 + b) ∧
      ∀ (k : Nat) word b, words[k]? = some word → Word.bit word b = true →
      (w - 1 - k) * 64 + b ≤ idx.toNat := by
  induction words generalizing w with
  | nil => simp [highestFrom]
  | cons word rest ih =>
      have restCount : rest.length = w - 1 := by
        simp only [List.length_cons] at count
        omega
      have restInside : ∀ (k : Nat) other b, rest[k]? = some other → Word.bit other b = true →
          (w - 1 - 1 - k) * 64 + b < levelCount.toNat := by
        intro k other b found set
        have bound := inside (k + 1) other b (by simpa using found) set
        rwa [show w - 1 - (k + 1) = w - 1 - 1 - k by omega] at bound
      obtain ⟨restNone, restSome⟩ := ih restCount restInside
      by_cases zero : word = 0
      · have clear := Word.eq_zero_iff.mp zero
        have skip : highestFrom levelCount (word :: rest) w =
            highestFrom levelCount rest (w - 1) := by
          simp [highestFrom, zero]
        rw [skip]
        constructor
        · intro stopped k other b found
          cases k with
          | zero => cases found; exact clear b
          | succ k => exact restNone stopped k other b (by simpa using found)
        · intro idx found
          obtain ⟨⟨k, other, b, here, small, set, value⟩, greatest⟩ := restSome idx found
          refine ⟨⟨k + 1, other, b, by simpa using here, small, set, ?_⟩, ?_⟩
          · rw [value, show w - 1 - 1 - k = w - 1 - (k + 1) by omega]
          · intro k other b here set
            cases k with
            | zero =>
                cases here
                simp [clear b] at set
            | succ k =>
                have bound := greatest k other b (by simpa using here) set
                rwa [show w - 1 - 1 - k = w - 1 - (k + 1) by omega] at bound
      · have set := Word.bit_clz zero
        have leading := Word.clz_lt zero
        have bound : (w - 1) * 64 + (63 - word.toBitVec.clz.toNat) < levelCount.toNat := by
          simpa using inside 0 word _ rfl set
        have value : (UInt32.ofNat ((w - 1) * bitsPerWord + (63 - word.toBitVec.clz.toNat))).toNat =
            (w - 1) * 64 + (63 - word.toBitVec.clz.toNat) := by
          have limit := levelCount.toNat_lt
          simp only [UInt32.toNat_ofNat', bitsPerWord]
          omega
        have accepted :
            UInt32.ofNat ((w - 1) * bitsPerWord + (63 - word.toBitVec.clz.toNat)) < levelCount := by
          rw [UInt32.lt_iff_toNat_lt, value]
          exact bound
        have stop : highestFrom levelCount (word :: rest) w =
            some (UInt32.ofNat ((w - 1) * bitsPerWord + (63 - word.toBitVec.clz.toNat))) := by
          have test : word ≠ 0 ∧ _ := ⟨zero, accepted⟩
          rw [highestFrom,
            if_pos (by simpa only [Bool.and_eq_true, bne_iff_ne, decide_eq_true_eq] using test)]
        rw [stop]
        refine ⟨by simp, ?_⟩
        rintro idx ⟨rfl⟩
        rw [value]
        refine ⟨⟨0, word, _, rfl, by omega, set, by simp⟩, ?_⟩
        intro k other b here otherSet
        cases k with
        | zero =>
            cases here
            have greatest := Word.le_clz otherSet
            simpa using greatest
        | succ k =>
            have small : b < 64 := by
              by_contra large
              simp [Word.bit_eq_false_of_le (not_lt.mp large)] at otherSet
            have within : k + 1 < w := by
              have inRange := (List.getElem?_eq_some_iff.mp here).1
              rwa [count] at inRange
            omega

end Scan

variable {bitmap : Array UInt64} {levelCount : UInt32}

/-- Bits of a bitmap as bits of its words. -/
theorem testBit_mul_add {k b : Nat} {word : UInt64} (found : bitmap[k]? = some word)
    (small : b < 64) :
    testBit bitmap (k * 64 + b) = Word.bit word b := by
  have slot : (k * 64 + b) / 64 = k := by omega
  have place : (k * 64 + b) % 64 = b := by omega
  rw [testBit_of_getElem? (by rw [slot]; exact found), place]

theorem testBit_split {i : Nat} (set : testBit bitmap i = true) :
    ∃ word, bitmap[i / 64]? = some word ∧ Word.bit word (i % 64) = true := by
  cases found : bitmap[i / 64]? with
  | none => simp [testBit, found] at set
  | some word => exact ⟨word, rfl, by simpa [testBit, found] using set⟩

theorem bit_lt {word : UInt64} {b : Nat} (set : Word.bit word b = true) : b < 64 := by
  by_contra large
  simp [Word.bit_eq_false_of_le (not_lt.mp large)] at set

theorem findLowestOccupied_spec (inside : ∀ i, testBit bitmap i = true → i < levelCount.toNat) :
    (findLowestOccupied bitmap levelCount = none → ∀ i, testBit bitmap i = false) ∧
    ∀ idx, findLowestOccupied bitmap levelCount = some idx →
      testBit bitmap idx.toNat = true ∧ ∀ i, testBit bitmap i = true → idx.toNat ≤ i := by
  have scanInside : ∀ (k : Nat) word b, bitmap.toList[k]? = some word → Word.bit word b = true →
      (0 + k) * 64 + b < levelCount.toNat := by
    intro k word b found set
    rw [Array.getElem?_toList] at found
    rw [Nat.zero_add]
    exact inside _ (by rw [testBit_mul_add found (bit_lt set)]; exact set)
  obtain ⟨missing, hit⟩ := lowestFrom_spec scanInside
  constructor
  · intro stopped i
    by_contra set
    obtain ⟨word, found, bit⟩ := testBit_split (Bool.eq_true_of_not_eq_false set)
    have clear :=
      missing stopped (i / 64) word (i % 64) (by rw [Array.getElem?_toList]; exact found)
    rw [bit] at clear
    contradiction
  · intro idx located
    obtain ⟨⟨k, word, b, found, small, set, value⟩, least⟩ := hit idx located
    rw [Array.getElem?_toList] at found
    refine ⟨by rw [value, Nat.zero_add, testBit_mul_add found small]; exact set, ?_⟩
    intro i bit
    obtain ⟨other, otherFound, otherBit⟩ := testBit_split bit
    have bound :=
      least (i / 64) other (i % 64) (by rw [Array.getElem?_toList]; exact otherFound) otherBit
    omega

theorem findHighestOccupied_spec (inside : ∀ i, testBit bitmap i = true → i < levelCount.toNat) :
    (findHighestOccupied bitmap levelCount = none → ∀ i, testBit bitmap i = false) ∧
    ∀ idx, findHighestOccupied bitmap levelCount = some idx →
      testBit bitmap idx.toNat = true ∧ ∀ i, testBit bitmap i = true → i ≤ idx.toNat := by
  have forward : ∀ {k : Nat} {word : UInt64}, bitmap.toList.reverse[k]? = some word →
      bitmap[bitmap.size - 1 - k]? = some word := by
    intro k word found
    have within := (List.getElem?_eq_some_iff.mp found).1
    rw [List.getElem?_reverse (by simpa using within), Array.getElem?_toList,
      Array.length_toList] at found
    exact found
  have backward : ∀ {k : Nat} {word : UInt64}, bitmap[k]? = some word →
      bitmap.toList.reverse[bitmap.size - 1 - k]? = some word := by
    intro k word found
    have within := (Array.getElem?_eq_some_iff.mp found).1
    rw [List.getElem?_reverse (by rw [Array.length_toList]; omega), Array.getElem?_toList,
      Array.length_toList, show bitmap.size - 1 - (bitmap.size - 1 - k) = k by omega]
    exact found
  have scanInside : ∀ (k : Nat) word b, bitmap.toList.reverse[k]? = some word →
      Word.bit word b = true → (bitmap.size - 1 - k) * 64 + b < levelCount.toNat := by
    intro k word b found set
    exact inside _ (by rw [testBit_mul_add (forward found) (bit_lt set)]; exact set)
  obtain ⟨missing, hit⟩ := highestFrom_spec (by simp) scanInside
  constructor
  · intro stopped i
    by_contra set
    obtain ⟨word, found, bit⟩ := testBit_split (Bool.eq_true_of_not_eq_false set)
    have clear := missing stopped _ word (i % 64) (backward found)
    rw [bit] at clear
    contradiction
  · intro idx located
    obtain ⟨⟨k, word, b, found, small, set, value⟩, greatest⟩ := hit idx located
    refine ⟨by rw [value, testBit_mul_add (forward found) small]; exact set, ?_⟩
    intro i bit
    obtain ⟨other, otherFound, otherBit⟩ := testBit_split bit
    have bound := greatest _ other (i % 64) (backward otherFound) otherBit
    have within := (Array.getElem?_eq_some_iff.mp otherFound).1
    omega

variable {isBuy : Bool} {levels : Nat} {side : BookSide} {occupied : Nat → Prop} {idx : UInt32}

/-- The word of an in-range level exists. -/
theorem word_exists (size : side.bitmap.size = (levels + bitsPerWord - 1) / bitsPerWord)
    (inside : idx.toNat < levels) : ∃ word, side.bitmap[idx.toNat / 64]? = some word := by
  have within : idx.toNat / 64 < side.bitmap.size := by
    rw [size, bitsPerWord]
    omega
  exact ⟨_, Array.getElem?_eq_getElem within⟩

theorem shift_toNat : (idx % 64).toUInt64.toNat = idx.toNat % 64 := by
  simp

theorem hasBit_spec (occupancy : Occupancy isBuy levels side occupied)
    (inside : idx.toNat < levels) :
    side.hasBit idx = .ok (testBit side.bitmap idx.toNat) := by
  obtain ⟨word, found⟩ := word_exists occupancy.size inside
  have small : (idx % 64).toUInt64.toNat < 64 := by
    rw [shift_toNat]
    omega
  rw [hasBit, bitsPerWord, readAt_of_getElem? found, testBit_of_getElem? found]
  change Except.ok _ = _
  rw [Word.and_shift_ne_zero small, shift_toNat]

theorem empty_occupancy (levelCount : UInt32) :
    Occupancy isBuy levelCount.toNat (BookSide.empty levelCount) fun _ => False where
  size := by simp [BookSide.empty]
  bits i := by simp [BookSide.empty, testBit_replicate_zero]
  inside _ impossible := impossible.elim
  none _ _ := id
  best _ found := by simp [BookSide.empty] at found

/-- Whether the new level replaces the cached best one, as a fact about indices. -/
theorem improves_some {best : UInt32} :
    improves isBuy idx (some best) = true ↔
    if isBuy then best.toNat < idx.toNat else idx.toNat < best.toNat := by
  cases isBuy <;> simp [improves, UInt32.lt_iff_toNat_lt]

/-- `set_occupied` adds one level to the set and keeps the best level exact. -/
theorem setOccupied_spec (occupancy : Occupancy isBuy levels side occupied)
    (inside : idx.toNat < levels) :
    ∃ after, side.setOccupied isBuy idx = .ok after ∧ after.levels = side.levels ∧
      after.levelCount = side.levelCount ∧
      Occupancy isBuy levels after fun i => i = idx.toNat ∨ occupied i := by
  obtain ⟨word, found⟩ := word_exists occupancy.size inside
  have within : idx.toNat / 64 < side.bitmap.size := (Array.getElem?_eq_some_iff.mp found).1
  let bitmap := side.bitmap.setIfInBounds (idx.toNat / 64) (word ||| (1 <<< (idx % 64).toUInt64))
  have size : bitmap.size = (levels + bitsPerWord - 1) / bitsPerWord := by
    simpa [bitmap] using occupancy.size
  have bits : ∀ i, testBit bitmap i = true ↔ i = idx.toNat ∨ occupied i := by
    intro i
    rw [testBit_setBit found shift_toNat, Bool.or_eq_true, decide_eq_true_eq, occupancy.bits]
  have bound : ∀ i, i = idx.toNat ∨ occupied i → i < levels := by
    rintro i (rfl | held)
    · exact inside
    · exact occupancy.inside i held
  have run : side.setOccupied isBuy idx =
      if improves isBuy idx side.bestIdx then .ok { side with bitmap, bestIdx := some idx }
      else .ok { side with bitmap } := by
    simp only [setOccupied, bitsPerWord, readAt_of_getElem? found, writeAt_of_lt _ within]
    rfl
  rw [run]
  by_cases better : improves isBuy idx side.bestIdx = true
  · rw [if_pos better]
    refine ⟨_, rfl, rfl, rfl, size, bits, bound, by simp, ?_⟩
    rintro _ ⟨rfl⟩
    refine ⟨.inl rfl, ?_⟩
    rintro i (rfl | held)
    · simp [AtLeastAsGood]
    · cases cached : side.bestIdx with
      | none => exact (occupancy.none cached i held).elim
      | some best =>
          have order := (occupancy.best best cached).2 i held
          rw [cached, improves_some] at better
          cases isBuy <;> simp only [AtLeastAsGood, Bool.false_eq_true, ↓reduceIte] at * <;> omega
  · rw [if_neg better]
    refine ⟨_, rfl, rfl, rfl, size, bits, bound, ?_, ?_⟩
    · intro cached
      rw [show side.bestIdx = none from cached] at better
      simp [improves] at better
    · intro best cached
      have cached : side.bestIdx = some best := cached
      obtain ⟨held, order⟩ := occupancy.best best cached
      refine ⟨.inr held, ?_⟩
      rintro i (rfl | other)
      · rw [cached, improves_some] at better
        cases isBuy <;> simp only [AtLeastAsGood, Bool.false_eq_true, ↓reduceIte] at * <;> omega
      · exact order i other

/-- `clear_occupied` removes one level from the set; when it was the best one,
the scan finds the new best. -/
theorem clearOccupied_spec {levelCount : UInt32}
    (occupancy : Occupancy isBuy levelCount.toNat side occupied)
    (inside : idx.toNat < levelCount.toNat) :
    ∃ after, side.clearOccupied isBuy levelCount idx = .ok after ∧ after.levels = side.levels ∧
      after.levelCount = side.levelCount ∧
      Occupancy isBuy levelCount.toNat after fun i => i ≠ idx.toNat ∧ occupied i := by
  obtain ⟨word, found⟩ := word_exists occupancy.size inside
  have within : idx.toNat / 64 < side.bitmap.size := (Array.getElem?_eq_some_iff.mp found).1
  let bitmap := side.bitmap.setIfInBounds (idx.toNat / 64) (word &&& ~~~(1 <<< (idx % 64).toUInt64))
  have size : bitmap.size = (levelCount.toNat + bitsPerWord - 1) / bitsPerWord := by
    simpa [bitmap] using occupancy.size
  have bits : ∀ i, testBit bitmap i = true ↔ i ≠ idx.toNat ∧ occupied i := by
    intro i
    rw [testBit_clearBit found shift_toNat, Bool.and_eq_true, Bool.not_eq_true',
      decide_eq_false_iff_not, occupancy.bits]
  have bound : ∀ i, i ≠ idx.toNat ∧ occupied i → i < levelCount.toNat := fun i held =>
    occupancy.inside i held.2
  have run : side.clearOccupied isBuy levelCount idx =
      .ok (recomputeBestAfterClear { side with bitmap } isBuy levelCount idx) := by
    simp only [clearOccupied, bitsPerWord, readAt_of_getElem? found, writeAt_of_lt _ within]
    rfl
  rw [run]
  by_cases cleared : side.bestIdx = some idx
  · have scanInside : ∀ i, testBit bitmap i = true → i < levelCount.toNat := fun i set =>
      bound i ((bits i).mp set)
    have absent : ∀ {i}, testBit bitmap i = false → ¬ (i ≠ idx.toNat ∧ occupied i) := by
      intro i clear held
      rw [(bits i).mpr held] at clear
      contradiction
    rw [recomputeBestAfterClear, if_pos cleared]
    cases isBuy with
    | true =>
        obtain ⟨missing, hit⟩ := findHighestOccupied_spec scanInside
        refine ⟨_, rfl, rfl, rfl, size, bits, bound, ?_, ?_⟩
        · exact fun stopped i => absent (missing stopped i)
        · intro best located
          obtain ⟨set, greatest⟩ := hit best located
          exact ⟨(bits _).mp set, fun i held => greatest i ((bits i).mpr held)⟩
    | false =>
        obtain ⟨missing, hit⟩ := findLowestOccupied_spec scanInside
        refine ⟨_, rfl, rfl, rfl, size, bits, bound, ?_, ?_⟩
        · exact fun stopped i => absent (missing stopped i)
        · intro best located
          obtain ⟨set, least⟩ := hit best located
          exact ⟨(bits _).mp set, fun i held => least i ((bits i).mpr held)⟩
  · rw [recomputeBestAfterClear, if_neg cleared]
    refine ⟨_, rfl, rfl, rfl, size, bits, bound, ?_, ?_⟩
    · exact fun stopped i held => occupancy.none stopped i held.2
    · intro best cached
      obtain ⟨held, order⟩ := occupancy.best best cached
      have cached : side.bestIdx = some best := cached
      refine ⟨⟨fun same => cleared ?_, held⟩, fun i other => order i other.2⟩
      rw [cached, UInt32.toNat_inj.mp same]

end BookSide

end Exsim.Core
