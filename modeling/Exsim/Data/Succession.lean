import Mathlib.Algebra.BigOperators.Group.List.Basic
import Mathlib.Algebra.GroupWithZero.Nat
import Mathlib.Data.List.Forall2
import Mathlib.Data.List.TakeWhile

/-! # What becomes of a queue

A queue later on holds entries of the queue before in the order they had, each
changed as `Became` allows.  What came in between is appended to the queue before.
-/

namespace Exsim.Data.Succession

open List (SublistForall₂)

section

variable {Entry : Type} {Became : Entry → Entry → Prop} {after before : List Entry}

theorem append {more added : List Entry} (front : SublistForall₂ Became after before)
    (back : SublistForall₂ Became more added) :
    SublistForall₂ Became (after ++ more) (before ++ added) := by
  obtain ⟨kept, changed, left⟩ := List.sublistForall₂_iff.mp front
  obtain ⟨keptMore, changedMore, leftMore⟩ := List.sublistForall₂_iff.mp back
  exact List.sublistForall₂_iff.mpr
    ⟨kept ++ keptMore, List.rel_append changed changedMore, left.append leftMore⟩

/-- Every entry later on is one that was there before. -/
theorem origin (later : SublistForall₂ Became after before) {entry : Entry}
    (member : entry ∈ after) :
    ∃ old ∈ before, Became entry old := by
  induction later with
  | nil => cases member
  | cons became _ ih =>
      obtain rfl | member := List.mem_cons.mp member
      · exact ⟨_, List.mem_cons_self, became⟩
      · obtain ⟨old, listed, became⟩ := ih member
        exact ⟨old, List.mem_cons_of_mem _ listed, became⟩
  | cons_right _ ih =>
      obtain ⟨old, listed, became⟩ := ih member
      exact ⟨old, List.mem_cons_of_mem _ listed, became⟩

theorem filter {keep : Entry → Bool} (keeps : ∀ entry old, Became entry old → keep entry = keep old)
    (later : SublistForall₂ Became after before) :
    SublistForall₂ Became (after.filter keep) (before.filter keep) := by
  induction later with
  | nil => exact .nil
  | @cons entry old _ _ became _ ih =>
      rw [List.filter_cons, List.filter_cons, keeps entry old became]
      split
      · exact .cons became ih
      · exact ih
  | cons_right _ ih =>
      rw [List.filter_cons]
      split
      · exact .cons_right ih
      · exact ih

theorem sum_le {size : Entry → Nat} (less : ∀ entry old, Became entry old → size entry ≤ size old)
    (later : SublistForall₂ Became after before) :
    (after.map size).sum ≤ (before.map size).sum := by
  induction later with
  | nil => exact Nat.zero_le _
  | cons became _ ih =>
      rw [List.map_cons, List.map_cons, List.sum_cons, List.sum_cons]
      exact Nat.add_le_add (less _ _ became) ih
  | cons_right _ ih =>
      rw [List.map_cons, List.sum_cons]
      exact Nat.le_trans ih (Nat.le_add_left _ _)

/-- Who is ahead of an entry was ahead of it before, if it was in one place only. -/
theorem ahead {isIt : Entry → Bool} (keeps : ∀ entry old, Became entry old → isIt entry = isIt old)
    (later : SublistForall₂ Became after before) (once : before.countP isIt ≤ 1)
    (waits : ∃ entry ∈ after, isIt entry = true) :
    SublistForall₂ Became (after.takeWhile fun entry => !isIt entry)
      (before.takeWhile fun entry => !isIt entry) := by
  induction later with
  | nil =>
      obtain ⟨_, member, _⟩ := waits
      cases member
  | @cons entry old _ _ became _ ih =>
      have same := keeps entry old became
      cases it : isIt old with
      | true => simp [same, it, SublistForall₂.nil]
      | false =>
          rw [List.countP_cons_of_neg (by simp [it])] at once
          obtain ⟨found, member, isFound⟩ := waits
          have behind := List.mem_of_ne_of_mem
            (fun first => by rw [first, same, it] at isFound; cases isFound) member
          simpa [same, it] using SublistForall₂.cons became (ih once ⟨found, behind, isFound⟩)
  | @cons_right old _ _ later ih =>
      cases it : isIt old with
      | true =>
          rw [List.countP_cons_of_pos it] at once
          obtain ⟨entry, member, found⟩ := waits
          obtain ⟨first, listed, became⟩ := origin later member
          have none :=
            List.countP_eq_zero.mp (Nat.le_zero.mp (Nat.le_of_succ_le_succ once)) first listed
          exact absurd ((keeps entry first became).symm.trans found) none
      | false =>
          rw [List.countP_cons_of_neg (by simp [it])] at once
          simpa [it] using SublistForall₂.cons_right (a := old) (ih once waits)

/-- What is appended since does not come ahead of what was there. -/
theorem ahead_append {isIt : Entry → Bool} {added : List Entry}
    (keeps : ∀ entry old, Became entry old → isIt entry = isIt old)
    (later : SublistForall₂ Became after (before ++ added))
    (once : before.countP isIt ≤ 1) (others : ∀ entry ∈ added, isIt entry = false)
    (waits : ∃ entry ∈ after, isIt entry = true) :
    SublistForall₂ Became (after.takeWhile fun entry => !isIt entry)
      (before.takeWhile fun entry => !isIt entry) := by
  obtain ⟨entry, member, found⟩ := waits
  obtain ⟨old, listed, became⟩ := origin later member
  have isOld : isIt old = true := (keeps entry old became).symm.trans found
  have there : old ∈ before := (List.mem_append.mp listed).resolve_right fun new => by
    rw [others old new] at isOld
    cases isOld
  have none : added.countP isIt = 0 := List.countP_eq_zero.mpr fun new isNew => by
    rw [others new isNew]
    decide
  have front : (before ++ added).takeWhile (fun entry => !isIt entry) =
      before.takeWhile fun entry => !isIt entry := by
    rw [List.takeWhile_append, if_neg]
    intro whole
    have all :=
      List.takeWhile_eq_self_iff.mp ((List.takeWhile_sublist _).eq_of_length whole) old there
    rw [isOld] at all
    cases all
  rw [← front]
  exact ahead keeps later (by rw [List.countP_append, none]; exact once) ⟨entry, member, found⟩

end

end Exsim.Data.Succession
