import Mathlib.Data.Finmap

namespace Exsim.Data.SwapRemove

/-! # A vector of distinct entries with the place of each

Entries join at the end.  The last entry moves to the place of one that leaves,
so both take constant time, and the order of the entries means nothing.
-/

variable {Key : Type} {entries : Array Key} {key other back : Key} {place i j : Nat}

/-- What is where once the last entry has moved to the place of another. -/
theorem getElem?_remove (inside : place < entries.size) (i : Nat) :
    (entries.setIfInBounds place back).pop[i]? = if i + 1 < entries.size then
      if i = place then some back else entries[i]? else none := by
  rw [Array.getElem?_pop, Array.size_setIfInBounds, Array.getElem?_setIfInBounds]
  by_cases before : i + 1 < entries.size
  · rw [if_pos before, if_pos (by omega)]
    by_cases here : place = i
    · rw [if_pos here, if_pos here.symm, if_pos (here ▸ inside)]
    · rw [if_neg here, if_neg (Ne.symm here)]
  · rw [if_neg before, if_neg (by omega)]

variable [DecidableEq Key] {places : Finmap fun _ : Key => Nat}

/-- `places` is the inverse of `entries`. -/
def Indexed (entries : Array Key) (places : Finmap fun _ : Key => Nat) : Prop :=
  ∀ key place, places.lookup key = some place ↔ entries[place]? = some key

theorem indexed_empty : Indexed (#[] : Array Key) ∅ := fun key place =>
  ⟨(fun found => by cases found), (fun found => by simp at found)⟩

theorem Indexed.mem (indexed : Indexed entries places) :
    key ∈ entries ↔ (places.lookup key).isSome = true := by
  rw [Array.mem_iff_getElem?, Option.isSome_iff_exists]
  exact exists_congr fun place => (indexed key place).symm

theorem Indexed.absent (indexed : Indexed entries places) :
    places.lookup key = none ↔ key ∉ entries := by
  rw [indexed.mem, Option.not_isSome_iff_eq_none]

/-- No entry is in two places. -/
theorem Indexed.unique (indexed : Indexed entries places) (here : entries[i]? = some key)
    (there : entries[j]? = some key) :
    i = j :=
  Option.some.inj (((indexed key i).mpr here).symm.trans ((indexed key j).mpr there))

theorem Indexed.nodup (indexed : Indexed entries places) : entries.toList.Nodup := by
  refine List.nodup_iff_injective_getElem.mpr fun i j same => Fin.ext ?_
  have here : entries[i.val]? = some entries.toList[i] := by
    rw [← Array.getElem?_toList]
    exact List.getElem?_eq_getElem i.isLt
  refine indexed.unique here ?_
  rw [← Array.getElem?_toList, List.getElem?_eq_getElem j.isLt]
  exact congrArg some same.symm

theorem Indexed.push (indexed : Indexed entries places) (absent : places.lookup key = none) :
    Indexed (entries.push key) (places.insert key entries.size) := by
  intro other place
  rw [Array.getElem?_push]
  by_cases isKey : other = key
  · subst isKey
    rw [Finmap.lookup_insert, Option.some.injEq]
    by_cases last : place = entries.size
    · simp [last]
    · rw [if_neg last, ← indexed, absent]
      exact ⟨fun same => absurd same.symm last, (fun found => by cases found)⟩
  · rw [Finmap.lookup_insert_of_ne _ isKey, indexed]
    by_cases last : place = entries.size
    · subst last
      simp [Ne.symm isKey]
    · rw [if_neg last]

theorem Indexed.remove (indexed : Indexed entries places) (found : places.lookup key = some place)
    (last : entries.back? = some back) :
    Indexed (entries.setIfInBounds place back).pop ((places.insert back place).erase key) := by
  have here := (indexed key place).mp found
  have inside := (Array.getElem?_eq_some_iff.mp here).1
  rw [Array.back?_eq_getElem?] at last
  intro other i
  rw [getElem?_remove inside]
  by_cases isKey : other = key
  · subst isKey
    rw [Finmap.lookup_erase]
    refine ⟨(fun gone => by cases gone), fun still => ?_⟩
    split at still
    · rename_i before
      split at still
      · -- the entry that leaves is the last one itself
        obtain rfl := Option.some.inj still
        have := indexed.unique here last
        omega
      · rename_i away
        exact absurd (indexed.unique still here) away
    · cases still
  · rw [Finmap.lookup_erase_ne isKey]
    by_cases isBack : other = back
    · subst isBack
      rw [Finmap.lookup_insert, Option.some.injEq]
      have moved : place ≠ entries.size - 1 := fun same => isKey (by
        rw [← same, here] at last
        exact (Option.some.inj last).symm)
      constructor
      · rintro rfl
        rw [if_pos (by omega), if_pos rfl]
      · intro there
        split at there
        · rename_i before
          split at there
          · rename_i same
            exact same.symm
          · have := indexed.unique there last
            omega
        · cases there
    · rw [Finmap.lookup_insert_of_ne _ isBack, indexed]
      constructor
      · intro there
        have bound := (Array.getElem?_eq_some_iff.mp there).1
        have notLast : i ≠ entries.size - 1 := fun same => isBack (by
          rw [← same, there] at last
          exact Option.some.inj last)
        have away : i ≠ place := fun same => isKey (by
          rw [← same, there] at here
          exact Option.some.inj here)
        rw [if_pos (by omega), if_neg away]
        exact there
      · intro there
        split at there
        · split at there
          · exact absurd (Option.some.inj there).symm isBack
          · exact there
        · cases there

theorem Indexed.mem_remove (indexed : Indexed entries places)
    (found : places.lookup key = some place) (last : entries.back? = some back) :
    other ∈ (entries.setIfInBounds place back).pop ↔ other ∈ entries ∧ other ≠ key := by
  rw [(indexed.remove found last).mem]
  by_cases isKey : other = key
  · subst isKey
    simp
  · rw [Finmap.lookup_erase_ne isKey]
    by_cases isBack : other = back
    · subst isBack
      rw [Finmap.lookup_insert]
      simp only [Option.isSome_some, ne_eq, isKey, not_false_eq_true, and_true, true_iff]
      exact Array.mem_of_back? last
    · rw [Finmap.lookup_insert_of_ne _ isBack, indexed.mem]
      simp [isKey]

end Exsim.Data.SwapRemove
