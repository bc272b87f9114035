import Exsim.Data.Run

namespace Exsim.Data

/-! # Two streams of inputs through one component

A list of tagged inputs is an interleaving of its left inputs and its right ones.
-/

variable {State Input Output Error View : Type}

def untagged : Input ⊕ Input → Input
  | .inl input => input
  | .inr input => input

def lefts : List (Input ⊕ Input) → List Input
  | [] => []
  | .inl input :: merged => input :: lefts merged
  | .inr _ :: merged => lefts merged

def rights : List (Input ⊕ Input) → List Input
  | [] => []
  | .inl _ :: merged => rights merged
  | .inr input :: merged => input :: rights merged

/-- The outputs of the left inputs, out of those of all inputs. -/
def leftOutputs : List (Input ⊕ Input) → List Output → List Output
  | .inl _ :: merged, output :: outputs => output :: leftOutputs merged outputs
  | .inr _ :: merged, _ :: outputs => leftOutputs merged outputs
  | _, _ => []

/-- The inputs of two streams in some order that keeps each stream's own. -/
def Interleaves (left right : List Input) (merged : List (Input ⊕ Input)) : Prop :=
  lefts merged = left ∧ rights merged = right

/-- One stream after the other. -/
theorem interleaves_append (left right : List Input) :
    Interleaves left right (left.map Sum.inl ++ right.map Sum.inr) := by
  induction left with
  | nil =>
      induction right with
      | nil => exact ⟨rfl, rfl⟩
      | cons input right ih => exact ⟨ih.1, congrArg (input :: ·) ih.2⟩
  | cons input left ih => exact ⟨congrArg (input :: ·) ih.1, ih.2⟩

theorem untagged_append (left right : List Input) :
    (left.map Sum.inl ++ right.map Sum.inr).map untagged = left ++ right := by
  have own : ∀ inputs : List Input, (inputs.map Sum.inl).map untagged = inputs := fun inputs => by
    rw [List.map_map]
    exact List.map_id inputs
  have foreign : ∀ inputs : List Input, (inputs.map Sum.inr).map untagged = inputs :=
    fun inputs => by
      rw [List.map_map]
      exact List.map_id inputs
  rw [List.map_append, own, foreign]

section

variable {step : State → Input → Except Error (State × Output)} {guard : State → Input → Prop}
  {related : State → State → Prop} {own foreign : Input → Prop} {view : Output → View}
  {both alone : State} {merged : List (Input ⊕ Input)}

/-- Where an own input makes two related components answer alike, and a foreign
one leaves the first related to a second that never sees it, a run of both
streams answers the own inputs as a run of these alone. -/
theorem run_interleaved
    (follow : ∀ both alone input, related both alone → own input → guard both input →
      ∃ after output aloneAfter aloneOutput, step both input = .ok (after, output) ∧
        step alone input = .ok (aloneAfter, aloneOutput) ∧ view aloneOutput = view output ∧
        related after aloneAfter)
    (frame : ∀ both alone input, related both alone → foreign input → guard both input →
      ∃ after output, step both input = .ok (after, output) ∧ related after alone)
    (start : related both alone) (leftOwn : ∀ input ∈ lefts merged, own input)
    (rightForeign : ∀ input ∈ rights merged, foreign input)
    (along : Along step guard both (merged.map untagged)) :
    ∃ final outputs aloneFinal aloneOutputs, run step both (merged.map untagged) =
      .ok (final, outputs) ∧ run step alone (lefts merged) = .ok (aloneFinal, aloneOutputs) ∧
      aloneOutputs.map view = (leftOutputs merged outputs).map view ∧ related final aloneFinal := by
  induction merged generalizing both alone with
  | nil => exact ⟨both, [], alone, [], rfl, rfl, rfl, start⟩
  | cons input merged ih =>
      cases input with
      | inl input =>
          obtain ⟨after, output, aloneAfter, aloneOutput, stepped, aloneStepped, alike, kept⟩ :=
            follow both alone input start (leftOwn input List.mem_cons_self) along.1
          obtain ⟨final, outputs, aloneFinal, aloneOutputs, ran, aloneRan, views, ends⟩ :=
            ih kept (fun other member => leftOwn other (List.mem_cons_of_mem _ member)) rightForeign
              (along.2 after output stepped)
          refine ⟨final, output :: outputs, aloneFinal, aloneOutput :: aloneOutputs,
            run_cons stepped ran, run_cons aloneStepped aloneRan, ?_, ends⟩
          rw [leftOutputs, List.map_cons, List.map_cons, alike, views]
      | inr input =>
          obtain ⟨after, output, stepped, kept⟩ := frame both alone input start
            (rightForeign input List.mem_cons_self) along.1
          obtain ⟨final, outputs, aloneFinal, aloneOutputs, ran, rest⟩ :=
            ih kept leftOwn (fun other member => rightForeign other (List.mem_cons_of_mem _ member))
              (along.2 after output stepped)
          exact ⟨final, output :: outputs, aloneFinal, aloneOutputs, run_cons stepped ran, rest⟩

end

end Exsim.Data
