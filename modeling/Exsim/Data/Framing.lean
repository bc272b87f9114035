import Mathlib.Algebra.BigOperators.Group.List.Basic
import Mathlib.Algebra.GroupWithZero.Nat

/-! # Encodings without separators

A concatenation of encodings is read back when each encoding shows its own end:
by its width, or by a weight that the items in it use up.
-/

namespace Exsim.Data

section

variable {Item Word : Type} {encode : Item → List Word} {left right : List Item}
  {rest tail : List Word}

/-- Where both encodings stand at the front of the same words, they are of one item. -/
def Splits (encode : Item → List Word) (first second : Item) : Prop :=
  ∀ rest tail, encode first ++ rest = encode second ++ tail → first = second ∧ rest = tail

theorem splits_of_width {width : Nat} (fixed : ∀ item, (encode item).length = width)
    (injective : Function.Injective encode) (first second : Item) : Splits encode first second := by
  intro rest tail same
  obtain ⟨items, rests⟩ := List.append_inj same ((fixed first).trans (fixed second).symm)
  exact ⟨injective items, rests⟩

/-- Nonempty encodings that show their end are read back from their concatenation. -/
theorem flatMap_inj (nonempty : ∀ item, encode item ≠ [])
    (splits : ∀ first ∈ left, ∀ second ∈ right, Splits encode first second)
    (same : left.flatMap encode = right.flatMap encode) : left = right := by
  induction left generalizing right with
  | nil =>
      cases right with
      | nil => rfl
      | cons item right => exact absurd (List.append_eq_nil_iff.mp same.symm).1 (nonempty item)
  | cons item left ih =>
      cases right with
      | nil => exact absurd (List.append_eq_nil_iff.mp same).1 (nonempty item)
      | cons other right =>
          obtain ⟨rfl, behind⟩ := splits item List.mem_cons_self other List.mem_cons_self _ _ same
          rw [ih (fun first here second there =>
            splits first (List.mem_cons_of_mem item here) second (List.mem_cons_of_mem item there))
            behind]

/-- Of two lists at the front of the same words, one begins the other. -/
theorem prefixes_nested (splits : ∀ first second, Splits encode first second)
    (same : left.flatMap encode ++ rest = right.flatMap encode ++ tail) :
    left <+: right ∨ right <+: left := by
  induction left generalizing right with
  | nil => exact .inl List.nil_prefix
  | cons item left ih =>
      cases right with
      | nil => exact .inr List.nil_prefix
      | cons other right =>
          rw [List.flatMap_cons, List.flatMap_cons, List.append_assoc, List.append_assoc] at same
          obtain ⟨rfl, behind⟩ := splits item other _ _ same
          exact (ih behind).imp (List.prefix_cons_inj item).mpr (List.prefix_cons_inj item).mpr

/-- A list that begins another and weighs the same is all of it. -/
theorem eq_of_prefix_of_sum {weight : Item → Nat} (positive : ∀ item ∈ right, 0 < weight item)
    (front : left <+: right) (balanced : (left.map weight).sum = (right.map weight).sum) :
    left = right := by
  obtain ⟨more, rfl⟩ := front
  cases more with
  | nil => exact (List.append_nil left).symm
  | cons item more =>
      have heavy := positive item (List.mem_append_right left List.mem_cons_self)
      rw [List.map_append, List.sum_append, List.map_cons, List.sum_cons] at balanced
      omega

end

section

variable {Item : Type} {less : Item → Item → Prop} {low high otherLow otherHigh : List Item}

/-- A list falling in an order and one rising above it. -/
structure Spread (less : Item → Item → Prop) (low high : List Item) : Prop where
  falls : low.Pairwise fun item later => less later item
  rises : high.Pairwise less
  apart : ∀ below ∈ low, ∀ above ∈ high, less below above

/-- The first item of one list's upper part read as the other's whole lower part. -/
def Shifted (low high otherLow otherHigh : List Item) : Prop :=
  low = [] ∧ ∃ item, otherLow = [item] ∧ high = item :: otherHigh

theorem Shifted.append_eq (shifted : Shifted low high otherLow otherHigh) :
    low ++ high = otherLow ++ otherHigh := by
  obtain ⟨rfl, item, rfl, rfl⟩ := shifted
  rfl

/-- What falls on one side of a seam and rises on the other is one item. -/
theorem Spread.seam {middle : List Item} (asymm : ∀ item other, less item other → ¬less other item)
    (left : Spread less low (middle ++ high)) (right : Spread less (low ++ middle) high) :
    middle = [] ∨ Shifted low (middle ++ high) (low ++ middle) high := by
  cases middle with
  | nil => exact .inl rfl
  | cons item middle =>
      right
      cases middle with
      | cons other middle =>
          have falls := (List.pairwise_append.mp right.falls).2.1
          have rises := left.rises
          exact absurd (List.rel_of_pairwise_cons falls List.mem_cons_self)
            (asymm _ _ (List.rel_of_pairwise_cons rises List.mem_cons_self))
      | nil =>
          cases low with
          | nil => exact ⟨rfl, item, rfl, rfl⟩
          | cons other low =>
              have falls := (List.pairwise_append.mp right.falls).2.2 other List.mem_cons_self item
                List.mem_cons_self
              exact absurd falls
                (asymm _ _ (left.apart other List.mem_cons_self item List.mem_cons_self))

/-- The parts are read back from the whole, unless one item changes its part. -/
theorem Spread.append_eq_iff (asymm : ∀ item other, less item other → ¬less other item)
    (left : Spread less low high) (right : Spread less otherLow otherHigh) :
    low ++ high = otherLow ++ otherHigh ↔ (low = otherLow ∧ high = otherHigh) ∨
      Shifted low high otherLow otherHigh ∨ Shifted otherLow otherHigh low high := by
  constructor
  · intro same
    obtain ⟨middle, rfl, rfl⟩ | ⟨middle, rfl, rfl⟩ := List.append_eq_append_iff.mp same
    · obtain rfl | shifted := left.seam asymm right
      · exact .inl ⟨(List.append_nil low).symm, rfl⟩
      · exact .inr (.inl shifted)
    · obtain rfl | shifted := right.seam asymm left
      · exact .inl ⟨List.append_nil otherLow, rfl⟩
      · exact .inr (.inr shifted)
  · rintro (⟨rfl, rfl⟩ | shifted | shifted)
    · rfl
    · exact shifted.append_eq
    · exact shifted.append_eq.symm

end

end Exsim.Data
