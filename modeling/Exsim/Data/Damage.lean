import Mathlib.Data.List.Basic
import Mathlib.Logic.Function.Basic

namespace Exsim.Data

/-! # One entry replaced by another

A fold whose step is injective in the state and in the entry notices any single
replacement.  A body stamped with such a fold differs from every other stamped
body in more than one place.
-/

variable {Entry State Check : Type}

section

variable {step : State → Entry → State} {entries : List Entry} {i : Nat} {old new : Entry}

theorem foldl_injective (reversible : ∀ entry, Function.Injective (step · entry))
    (entries : List Entry) :
    Function.Injective (entries.foldl step ·) := by
  induction entries with
  | nil => exact fun left right same => same
  | cons entry entries ih => exact fun left right same => reversible entry (ih same)

theorem foldl_set_ne (reversible : ∀ entry, Function.Injective (step · entry))
    (distinguishes : ∀ state, Function.Injective (step state)) (found : entries[i]? = some old)
    (changed : new ≠ old) (start : State) :
    (entries.set i new).foldl step start ≠ entries.foldl step start := by
  induction entries generalizing i start with
  | nil => simp at found
  | cons entry entries ih =>
      cases i with
      | zero =>
          obtain rfl : entry = old := by simpa using found
          intro same
          exact changed (distinguishes start (foldl_injective reversible entries same))
      | succ i => exact ih (by simpa using found) _

end

section

variable {header body other stated : List Entry} {i : Nat} {old new : Entry}

/-- A change in the header keeps the body, one in the body keeps the header. -/
theorem set_append_cases (found : (header ++ body)[i]? = some old) (changed : new ≠ old)
    (width : stated.length = header.length)
    (same : (header ++ body).set i new = stated ++ other) :
    (other = body ∧ stated ≠ header) ∨
    (stated = header ∧ ∃ j, body[j]? = some old ∧ other = body.set j new) := by
  rw [List.set_append] at same
  rw [List.getElem?_append] at found
  split at same
  · rename_i inside
    rw [if_pos inside] at found
    obtain ⟨headers, bodies⟩ := List.append_inj same (by rw [List.length_set, width])
    refine .inl ⟨bodies.symm, fun unchanged => changed ?_⟩
    rw [unchanged] at headers
    have there := congrArg (·[i]?) headers
    rw [List.getElem?_set_self inside, found, Option.some.injEq] at there
    exact there
  · rename_i beyond
    rw [if_neg beyond] at found
    obtain ⟨headers, bodies⟩ := List.append_inj same width.symm
    exact .inr ⟨headers.symm, _, found, bodies.symm⟩

/-- A stamped body with one entry replaced is no stamped body. -/
theorem stamped_set_ne {stamp : List Entry → List Entry} {check : List Entry → Check}
    (stamped : stamp body = stamp other → check body = check other)
    (width : (stamp other).length = (stamp body).length)
    (notices : ∀ {j : Nat}, body[j]? = some old → check (body.set j new) ≠ check body)
    (found : (stamp body ++ body)[i]? = some old) (changed : new ≠ old) :
    (stamp body ++ body).set i new ≠ stamp other ++ other := by
  intro same
  rcases set_append_cases found changed width
    same with ⟨bodies, stamps⟩ | ⟨stamps, j, there, bodies⟩
  · exact stamps (congrArg stamp bodies)
  · have checks := stamped stamps.symm
    rw [bodies] at checks
    exact notices there checks.symm

end

end Exsim.Data
