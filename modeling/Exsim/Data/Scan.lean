import Mathlib.Data.List.Basic

namespace Exsim.Data

/-! # Scans of a set of indices

`below` lists the members under a bound from the highest down, `above` those of
a range from the lowest up.
-/

variable {occupied : Nat → Bool} {i n start count : Nat}

def below (occupied : Nat → Bool) : Nat → List Nat
  | 0 => []
  | n + 1 => if occupied n then n :: below occupied n else below occupied n

def above (occupied : Nat → Bool) : Nat → Nat → List Nat
  | 0, _ => []
  | count + 1, start =>
      if occupied start then start :: above occupied count (start + 1)
      else above occupied count (start + 1)

theorem below_of_occupied (here : occupied n = true) :
    below occupied (n + 1) = n :: below occupied n := if_pos here

theorem below_of_empty (here : occupied n = false) : below occupied (n + 1) = below occupied n := by
  rw [below, here, if_neg Bool.false_ne_true]

theorem above_of_occupied (here : occupied start = true) :
    above occupied (count + 1) start = start :: above occupied count (start + 1) := if_pos here

theorem above_of_empty (here : occupied start = false) :
    above occupied (count + 1) start = above occupied count (start + 1) := by
  rw [above, here, if_neg Bool.false_ne_true]

theorem below_eq_nil (empty : ∀ i, occupied i = false) (n : Nat) : below occupied n = [] := by
  induction n with
  | zero => rfl
  | succ n ih => rw [below_of_empty (empty n), ih]

theorem above_eq_nil (empty : ∀ i, occupied i = false) (count start : Nat) :
    above occupied count start = [] := by
  induction count generalizing start with
  | zero => rfl
  | succ count ih => rw [above_of_empty (empty start), ih]

theorem below_eq_filter (occupied : Nat → Bool) (n : Nat) :
    below occupied n = (List.range n).reverse.filter occupied := by
  induction n with
  | zero => rfl
  | succ n ih =>
      rw [below, List.range_succ, List.reverse_append, List.reverse_singleton,
        List.singleton_append, List.filter_cons, ih]

theorem above_eq_filter (occupied : Nat → Bool) (count start : Nat) :
    above occupied count start = (List.range' start count).filter occupied := by
  induction count generalizing start with
  | zero => rfl
  | succ count ih => rw [above, List.range'_succ, List.filter_cons, ih]

/-- A downward scan starts at the highest member. -/
theorem head?_below (inside : i < n) (found : occupied i = true)
    (highest : ∀ j, occupied j = true → j ≤ i) :
    (below occupied n).head? = some i := by
  induction n with
  | zero => omega
  | succ n ih =>
      by_cases here : occupied n = true
      · obtain rfl : n = i := Nat.le_antisymm (highest n here) (by omega)
        rw [below_of_occupied here, List.head?_cons]
      · rw [below_of_empty (Bool.eq_false_iff.mpr here)]
        refine ih (Nat.lt_of_le_of_ne (by omega) ?_)
        rintro rfl
        exact here found

/-- An upward scan starts at the lowest member. -/
theorem head?_above (after : start ≤ i) (inside : i < start + count) (found : occupied i = true)
    (lowest : ∀ j, occupied j = true → i ≤ j) : (above occupied count start).head? = some i := by
  induction count generalizing start with
  | zero => omega
  | succ count ih =>
      by_cases here : occupied start = true
      · obtain rfl : start = i := Nat.le_antisymm after (lowest start here)
        rw [above_of_occupied here, List.head?_cons]
      · rw [above_of_empty (Bool.eq_false_iff.mpr here)]
        refine ih (Nat.lt_of_le_of_ne after ?_) (by omega)
        rintro rfl
        exact here found

end Exsim.Data
