namespace Exsim.Data

/-! # Runs of a component that answers one input at a time

A step may fail; a run is every step in order, stopping at the first failure.
`Along` holds of a run when every input meets a guard in the state it arrives in.
-/

variable {State Spec Input Output Error : Type}

def run (step : State → Input → Except Error (State × Output)) :
    State → List Input → Except Error (State × List Output)
  | state, [] => .ok (state, [])
  | state, input :: inputs =>
      match step state input with
      | .error error => .error error
      | .ok (after, output) =>
          match run step after inputs with
          | .error error => .error error
          | .ok (final, outputs) => .ok (final, output :: outputs)

/-- A run of a component that cannot fail. -/
def trace (step : Spec → Input → Spec × Output) : Spec → List Input → Spec × List Output
  | spec, [] => (spec, [])
  | spec, input :: inputs =>
      let (after, output) := step spec input
      let (final, outputs) := trace step after inputs
      (final, output :: outputs)

def Along (step : State → Input → Except Error (State × Output)) (guard : State → Input → Prop) :
    State → List Input → Prop
  | _, [] => True
  | state, input :: inputs =>
      guard state input ∧ ∀ after output, step state input = .ok (after, output) →
        Along step guard after inputs

/-- Guards that can be tested can be tested along a run. -/
instance Along.decidable {guard : State → Input → Prop} [DecidableRel guard]
    (step : State → Input → Except Error (State × Output)) :
    ∀ (inputs : List Input) (state : State), Decidable (Along step guard state inputs)
  | [], _ => .isTrue trivial
  | input :: inputs, state =>
      match stepped : step state input with
      | .error _ =>
          decidable_of_iff (guard state input)
            ⟨fun met => ⟨met, fun _ _ also => by simp [stepped] at also⟩, And.left⟩
      | .ok (after, output) =>
          have _ : Decidable (Along step guard after inputs) := Along.decidable step inputs after
          decidable_of_iff (guard state input ∧ Along step guard after inputs)
            ⟨fun met => ⟨met.1, fun _ _ also => by
                rw [stepped, Except.ok.injEq, Prod.mk.injEq] at also
                exact also.1 ▸ met.2⟩,
              fun along => ⟨along.1, along.2 after output stepped⟩⟩

theorem ok_of_toOption {result : Except Error Output} {output : Output}
    (returned : result.toOption = some output) :
    result = .ok output := by
  cases result with
  | error error => cases returned
  | ok other => rw [Option.some.inj returned]

/-- A fact computed of a result shows that there is one. -/
theorem ok_of_map {result : Except Error Output} {read : Output → Spec} {value : Spec}
    (shown : result.toOption.map read = some value) :
    ∃ output, result = .ok output ∧ read output = value := by
  obtain ⟨output, returned, reads⟩ := Option.map_eq_some_iff.mp shown
  exact ⟨output, ok_of_toOption returned, reads⟩

/-- A traversal that succeeds gives the result of each entry, in its place. -/
theorem mapM_ok {f : Input → Except Error Output} {inputs : List Input} {outputs : List Output}
    (ran : inputs.mapM f = .ok outputs) : outputs.length = inputs.length ∧
      ∀ (i : Nat) (input : Input), inputs[i]? = some input → ∃ output, outputs[i]? = some output ∧
      f input = .ok output := by
  induction inputs generalizing outputs with
  | nil =>
      rw [List.mapM_nil] at ran
      obtain rfl : [] = outputs := Except.ok.inj ran
      exact ⟨rfl, fun i input found => by cases found⟩
  | cons input inputs ih =>
      rw [List.mapM_cons] at ran
      cases first : f input with
      | error error => rw [first] at ran; cases ran
      | ok output =>
          cases rest : inputs.mapM f with
          | error error => rw [first, rest] at ran; cases ran
          | ok tail =>
              rw [first, rest] at ran
              obtain rfl : output :: tail = outputs := Except.ok.inj ran
              obtain ⟨length, each⟩ := ih rest
              refine ⟨congrArg (· + 1) length, fun i other found => ?_⟩
              cases i with
              | zero =>
                  obtain rfl := Option.some.inj found
                  exact ⟨output, rfl, first⟩
              | succ i => exact each i other found

/-- A traversal in which every entry succeeds does. -/
theorem mapM_returns {f : Input → Except Error Output} {inputs : List Input}
    (each : ∀ input ∈ inputs, ∃ output, f input = .ok output) :
    ∃ outputs, inputs.mapM f = .ok outputs := by
  induction inputs with
  | nil => exact ⟨[], rfl⟩
  | cons input inputs ih =>
      obtain ⟨output, first⟩ := each input List.mem_cons_self
      obtain ⟨outputs, rest⟩ :=
        ih fun other member => each other (List.mem_cons_of_mem input member)
      exact ⟨output :: outputs, by rw [List.mapM_cons, first, rest]; rfl⟩

section

variable {step : State → Input → Except Error (State × Output)}
  {guard guard' : State → Input → Prop} {state after final : State} {input : Input}
  {inputs others : List Input} {output : Output} {outputs outputs' : List Output}

@[simp] theorem run_nil : run step state [] = .ok (state, []) := rfl

theorem run_cons (stepped : step state input = .ok (after, output))
    (ran : run step after inputs = .ok (final, outputs)) :
    run step state (input :: inputs) = .ok (final, output :: outputs) := by
  simp only [run, stepped, ran]

theorem run_cons_ok (ran : run step state (input :: inputs) = .ok (final, outputs)) :
    ∃ after output rest, step state input = .ok (after, output) ∧
    run step after inputs = .ok (final, rest) ∧ outputs = output :: rest := by
  rw [run] at ran
  cases stepped : step state input with
  | error error => simp [stepped] at ran
  | ok result =>
      obtain ⟨after, output⟩ := result
      simp only [stepped] at ran
      cases rest : run step after inputs with
      | error error => simp [rest] at ran
      | ok result =>
          obtain ⟨final, tail⟩ := result
          simp only [rest, Except.ok.injEq, Prod.mk.injEq] at ran
          obtain ⟨rfl, rfl⟩ := ran
          exact ⟨after, output, tail, rfl, rest, rfl⟩

/-- A run answers every input. -/
theorem run_length (ran : run step state inputs = .ok (final, outputs)) :
    outputs.length = inputs.length := by
  induction inputs generalizing state outputs with
  | nil =>
      obtain ⟨-, rfl⟩ := Prod.mk.inj (Except.ok.inj ran)
      rfl
  | cons input inputs ih =>
      obtain ⟨after, output, rest, -, tail, rfl⟩ := run_cons_ok ran
      rw [List.length_cons, List.length_cons, ih tail]

theorem run_append (first : run step state inputs = .ok (after, outputs))
    (second : run step after others = .ok (final, outputs')) :
    run step state (inputs ++ others) = .ok (final, outputs ++ outputs') := by
  induction inputs generalizing state outputs with
  | nil =>
      rw [run_nil, Except.ok.injEq, Prod.mk.injEq] at first
      obtain ⟨rfl, rfl⟩ := first
      exact second
  | cons input inputs ih =>
      obtain ⟨middle, output, rest, stepped, ran, rfl⟩ := run_cons_ok first
      exact run_cons stepped (ih ran)

/-- A run of two parts is the run of the one and then of the other. -/
theorem run_append_ok (ran : run step state (inputs ++ others) = .ok (final, outputs)) :
    ∃ after front back, run step state inputs = .ok (after, front) ∧
    run step after others = .ok (final, back) ∧ outputs = front ++ back := by
  induction inputs generalizing state outputs with
  | nil => exact ⟨state, [], outputs, rfl, ran, rfl⟩
  | cons input inputs ih =>
      obtain ⟨middle, output, rest, stepped, tail, rfl⟩ := run_cons_ok ran
      obtain ⟨after, front, back, first, second, rfl⟩ := ih tail
      exact ⟨after, output :: front, back, run_cons stepped first, second, rfl⟩

/-- A part of the state that no step reads or tells can be forgotten along a run. -/
theorem run_map {forget : State → State} (forgets : ∀ state input,
      step (forget state) input = (step state input).map fun made => (forget made.1, made.2))
    (state : State) (inputs : List Input) :
    run step (forget state) inputs = (run step state inputs).map fun made =>
      (forget made.1, made.2) := by
  induction inputs generalizing state with
  | nil => rfl
  | cons input inputs ih =>
      rw [run, run, forgets]
      cases step state input with
      | error error => rfl
      | ok made =>
          dsimp only [Except.map]
          rw [ih made.1]
          cases run step made.1 inputs <;> rfl

/-- The front of a run is a run, and so is the rest of it from there. -/
theorem run_take (ran : run step state inputs = .ok (final, outputs)) (count : Nat) :
    ∃ middle, run step state (inputs.take count) = .ok (middle, outputs.take count) ∧
      run step middle (inputs.drop count) = .ok (final, outputs.drop count) := by
  induction inputs generalizing state outputs count with
  | nil =>
      rw [run_nil, Except.ok.injEq, Prod.mk.injEq] at ran
      obtain ⟨rfl, rfl⟩ := ran
      exact ⟨state, by rw [List.take_nil, List.take_nil]; rfl,
        by rw [List.drop_nil, List.drop_nil]; rfl⟩
  | cons input inputs ih =>
      cases count with
      | zero => exact ⟨state, rfl, ran⟩
      | succ count =>
          obtain ⟨after, output, rest, stepped, tail, rfl⟩ := run_cons_ok ran
          obtain ⟨middle, front, back⟩ := ih tail count
          exact ⟨middle, run_cons stepped front, back⟩

theorem trace_cons {stepSpec : Spec → Input → Spec × Output} {spec : Spec} :
    trace stepSpec spec (input :: inputs) =
      ((trace stepSpec (stepSpec spec input).1 inputs).1,
        (stepSpec spec input).2 :: (trace stepSpec (stepSpec spec input).1 inputs).2) := rfl

theorem trace_append {stepSpec : Spec → Input → Spec × Output} {spec : Spec} :
    trace stepSpec spec (inputs ++ others) =
      ((trace stepSpec (trace stepSpec spec inputs).1 others).1,
        (trace stepSpec spec inputs).2 ++
          (trace stepSpec (trace stepSpec spec inputs).1 others).2) := by
  induction inputs generalizing spec with
  | nil => rfl
  | cons input inputs ih => simp only [List.cons_append, trace, ih]

theorem trace_length {stepSpec : Spec → Input → Spec × Output} {spec : Spec} :
    (trace stepSpec spec inputs).2.length = inputs.length := by
  induction inputs generalizing spec with
  | nil => rfl
  | cons input inputs ih => simp only [trace_cons, List.length_cons, ih]

/-- What every step of a component that cannot fail keeps, every run keeps. -/
theorem trace_invariant {stepSpec : Spec → Input → Spec × Output} {spec : Spec}
    {invariant : Spec → Prop}
    (keep : ∀ spec input, invariant spec → invariant (stepSpec spec input).1)
    (start : invariant spec) :
    invariant (trace stepSpec spec inputs).1 := by
  induction inputs generalizing spec with
  | nil => exact start
  | cons input inputs ih =>
      rw [trace_cons]
      exact ih (keep spec input start)

theorem Along.imp (along : Along step guard state inputs)
    (weaken : ∀ state input, guard state input → guard' state input) :
    Along step guard' state inputs := by
  induction inputs generalizing state with
  | nil => trivial
  | cons input inputs ih =>
      exact ⟨weaken state input along.1, fun after output stepped =>
        ih (along.2 after output stepped)⟩

theorem along_append (ran : run step state inputs = .ok (after, outputs)) :
    Along step guard state (inputs ++ others) ↔ Along step guard state inputs ∧
    Along step guard after others := by
  induction inputs generalizing state outputs with
  | nil =>
      rw [run_nil, Except.ok.injEq, Prod.mk.injEq] at ran
      obtain ⟨rfl, rfl⟩ := ran
      exact ⟨fun along => ⟨trivial, along⟩, And.right⟩
  | cons input inputs ih =>
      obtain ⟨middle, output, rest, stepped, tail, rfl⟩ := run_cons_ok ran
      have only : ∀ {property : State → Prop},
          (∀ after output', step state input = .ok (after, output') → property after) ↔
          property middle := by
        intro property
        constructor
        · exact fun every => every middle output stepped
        · intro holds after output' also
          rw [stepped, Except.ok.injEq, Prod.mk.injEq] at also
          exact also.1 ▸ holds
      simp only [List.cons_append, Along, only, ih tail, and_assoc]

end

section

variable {step : State → Input → Except Error (State × Output)} {guard : State → Input → Prop}
  {state : State} {inputs : List Input}

/-- A step that keeps a relation to a component that cannot fail keeps it along
every guarded run, and the run answers as that component does. -/
theorem run_simulation {stepSpec : Spec → Input → Spec × Output} {related : State → Spec → Prop}
    {spec : Spec} (simulate : ∀ state spec input, related state spec → guard state input →
      ∃ after, step state input = .ok (after, (stepSpec spec input).2) ∧ related after
      (stepSpec spec input).1)
    (start : related state spec) (along : Along step guard state inputs) :
    ∃ final, run step state inputs = .ok (final, (trace stepSpec spec inputs).2) ∧
      related final (trace stepSpec spec inputs).1 := by
  induction inputs generalizing state spec with
  | nil => exact ⟨state, rfl, start⟩
  | cons input inputs ih =>
      obtain ⟨after, stepped, kept⟩ := simulate state spec input start along.1
      obtain ⟨final, ran, related⟩ := ih kept (along.2 after _ stepped)
      exact ⟨final, run_cons stepped ran, related⟩

/-- What every guarded step preserves, every guarded run preserves, and what is
good of every answer of such a step is good of the answers of the run. -/
theorem run_outputs {invariant : State → Prop} {good : Output → Prop}
    (preserve : ∀ state input, invariant state → guard state input →
      ∃ after output, step state input = .ok (after, output) ∧ good output ∧ invariant after)
    (start : invariant state) (along : Along step guard state inputs) :
    ∃ final outputs, run step state inputs = .ok (final, outputs) ∧
    (∀ output ∈ outputs, good output) ∧ invariant final := by
  induction inputs generalizing state with
  | nil => exact ⟨state, [], rfl, fun _ member => (nomatch member), start⟩
  | cons input inputs ih =>
      obtain ⟨after, output, stepped, first, kept⟩ := preserve state input start along.1
      obtain ⟨final, outputs, ran, rest, holds⟩ := ih kept (along.2 after output stepped)
      exact ⟨final, output :: outputs, run_cons stepped ran,
        List.forall_mem_cons.mpr ⟨first, rest⟩, holds⟩

theorem run_invariant {invariant : State → Prop}
    (preserve : ∀ state input, invariant state → guard state input →
      ∃ after output, step state input = .ok (after, output) ∧ invariant after)
    (start : invariant state) (along : Along step guard state inputs) :
    ∃ final outputs, run step state inputs = .ok (final, outputs) ∧ invariant final := by
  have preserve : ∀ state input, invariant state → guard state input →
      ∃ after output, step state input = .ok (after, output) ∧ True ∧ invariant after :=
    fun state input holds met => by
      obtain ⟨after, output, stepped, kept⟩ := preserve state input holds met
      exact ⟨after, output, stepped, trivial, kept⟩
  obtain ⟨final, outputs, ran, -, holds⟩ := run_outputs preserve start along
  exact ⟨final, outputs, ran, holds⟩

/-- Where a property survives exactly the steps that meet a guard, a run meets
the guard throughout exactly if every step leaves the property true. -/
theorem along_iff {kept good : State → Prop} {room : State → Input → Prop}
    (keep : ∀ state input, kept state → room state input →
      ∃ after output, step state input = .ok (after, output) ∧ kept after ∧
      (good state → (good after ↔ guard state input)))
    (start : kept state) (fine : good state) (along : Along step room state inputs) :
    Along step guard state inputs ↔
      Along step (fun state input => ∀ after output, step state input = .ok (after, output) →
        good after) state inputs := by
  induction inputs generalizing state with
  | nil => exact ⟨fun _ => trivial, fun _ => trivial⟩
  | cons input inputs ih =>
      obtain ⟨after, output, stepped, held, exact⟩ := keep state input start along.1
      have only : ∀ {property : State → Prop},
          (∀ after output, step state input = .ok (after, output) → property after) ↔
          property after := by
        intro property
        refine ⟨fun every => every after output stepped, fun holds other answer also => ?_⟩
        rw [stepped, Except.ok.injEq, Prod.mk.injEq] at also
        exact also.1 ▸ holds
      simp only [Along, only] at along ⊢
      rw [exact fine]
      refine and_congr_right fun met => ?_
      exact ih held ((exact fine).mpr met) along.2

end

end Exsim.Data
