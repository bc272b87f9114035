import Mathlib.Data.List.Perm.Basic

namespace Exsim.Data

/-! # Functions of a list that ignore its order

Any order of a list is reached from any other by swaps of neighbours.
-/

variable {Entry Value : Type} {value : List Entry → Value} {entries left right : List Entry}

/-- No swap of neighbours in an order of the entries changes the value. -/
def NeighboursCommute (value : List Entry → Value) (entries : List Entry) : Prop :=
  ∀ front one two back, (front ++ one :: two :: back).Perm entries →
    value (front ++ one :: two :: back) = value (front ++ two :: one :: back)

theorem value_of_perm (commute : NeighboursCommute value entries) (same : left.Perm right) :
    ∀ front, (front ++ left).Perm entries → value (front ++ left) = value (front ++ right) := by
  induction same with
  | nil => exact fun front order => rfl
  | cons entry same ih =>
      intro front order
      have moved := ih (front ++ [entry]) (by rwa [List.append_assoc, List.singleton_append])
      simpa only [List.append_assoc, List.singleton_append] using moved
  | swap one two back => exact fun front order => commute front two one back order
  | trans first second firstIh secondIh =>
      intro front order
      rw [firstIh front order]
      exact secondIh front ((first.symm.append_left front).trans order)

theorem orderless_iff :
    (∀ left right, left.Perm entries → right.Perm entries → value left = value right) ↔
    NeighboursCommute value entries := by
  constructor
  · intro alike front one two back order
    exact alike _ _ order (((List.Perm.swap one two back).append_left front).trans order)
  · intro commute left right leftOrder rightOrder
    exact value_of_perm commute (leftOrder.trans rightOrder.symm) [] leftOrder

theorem commute_of_length_le_one (few : entries.length ≤ 1) : NeighboursCommute value entries := by
  intro front one two back order
  have length := order.length_eq
  rw [List.length_append, List.length_cons, List.length_cons] at length
  omega

end Exsim.Data
