import Mathlib.Logic.Relation

/-!
# Guarded runs of a partial transition function

A program with a finite set of entry points is a partial function from states
and labels to states; `none` means that the call does not return.  This file
collects the induction rules used to carry a property over whole runs: along
the states reachable while every step meets a guard, and along one explicit
list of labels.
-/

namespace MbedtlsKcp

namespace TransitionRuns

variable {State Label : Type*}

/-- States reachable from `initial` when every step taken meets `guard`. -/
inductive Reachable (initial : State → Prop)
    (step : State → Label → Option State)
    (guard : State → Label → Prop) : State → Prop
  | start {state : State} (starts : initial state) :
      Reachable initial step guard state
  | next {before after : State} {label : Label}
      (reached : Reachable initial step guard before)
      (meets : guard before label)
      (steps : step before label = some after) :
      Reachable initial step guard after

section Reachability

variable {initial : State → Prop} {step : State → Label → Option State}
variable {guard : State → Label → Prop}

/-- A property that holds initially and is kept by every guarded step holds in
every reachable state. -/
theorem Reachable.invariant (property : State → Prop)
    (establishes : ∀ state, initial state → property state)
    (preserves : ∀ before label after, property before →
      guard before label → step before label = some after →
        property after)
    {state : State} (reached : Reachable initial step guard state) :
    property state := by
  induction reached with
  | start starts => exact establishes _ starts
  | next _ meets steps ih => exact preserves _ _ _ ih meets steps

/-- A weaker guard reaches at least as many states. -/
theorem Reachable.weaken {weaker : State → Label → Prop}
    (implied : ∀ state label, guard state label → weaker state label)
    {state : State} (reached : Reachable initial step guard state) :
    Reachable initial step weaker state := by
  induction reached with
  | start starts => exact .start starts
  | next _ meets steps ih => exact .next ih (implied _ _ meets) steps

end Reachability

/-- The state after a list of labels. -/
def run (step : State → Label → Option State) :
    State → List Label → Option State
  | state, [] => some state
  | state, label :: labels =>
      (step state label).bind fun next => run step next labels

@[simp]
theorem run_nil (step : State → Label → Option State) (state : State) :
    run step state [] = some state :=
  rfl

theorem run_cons (step : State → Label → Option State) (state : State)
    (label : Label) (labels : List Label) :
    run step state (label :: labels) =
      (step state label).bind fun next => run step next labels :=
  rfl

/-- Every step of the run from `state` meets `guard`. -/
def StepsMeet (step : State → Label → Option State)
    (guard : State → Label → Prop) : State → List Label → Prop
  | _, [] => True
  | state, label :: labels =>
      guard state label ∧
        ∀ next, step state label = some next →
          StepsMeet step guard next labels

instance decidableStepsMeet (step : State → Label → Option State)
    (guard : State → Label → Prop)
    [∀ state label, Decidable (guard state label)] :
    ∀ state labels, Decidable (StepsMeet step guard state labels)
  | _, [] => isTrue trivial
  | state, label :: labels =>
      match steps : step state label with
      | none => decidable_of_iff (guard state label)
          ⟨fun meets => ⟨meets, fun _ some => by simp [steps] at some⟩,
            fun meets => meets.1⟩
      | some next =>
          have := decidableStepsMeet step guard next labels
          decidable_of_iff
            (guard state label ∧ StepsMeet step guard next labels)
            ⟨fun meets => ⟨meets.1, fun _ same =>
                Option.some.inj (steps.symm.trans same) ▸ meets.2⟩,
              fun meets => ⟨meets.1, meets.2 next steps⟩⟩

/-- Every state reached by the run, the first one included, satisfies
`property`. -/
def StatesMeet (step : State → Label → Option State)
    (property : State → Prop) : State → List Label → Prop
  | state, [] => property state
  | state, label :: labels =>
      property state ∧
        ∀ next, step state label = some next →
          StatesMeet step property next labels

theorem StatesMeet.first {step : State → Label → Option State}
    {property : State → Prop} {state : State} {labels : List Label}
    (meet : StatesMeet step property state labels) : property state := by
  cases labels with
  | nil => exact meet
  | cons label labels => exact meet.1

theorem StatesMeet.last {step : State → Label → Option State}
    {property : State → Prop} {first last : State} {labels : List Label}
    (meet : StatesMeet step property first labels)
    (runs : run step first labels = some last) : property last := by
  induction labels generalizing first with
  | nil =>
      obtain rfl := Option.some.inj runs
      exact meet
  | cons label labels ih =>
      rw [run_cons, Option.bind_eq_some_iff] at runs
      obtain ⟨next, steps, rest⟩ := runs
      exact ih (meet.2 next steps) rest

theorem StepsMeet.last {step : State → Label → Option State}
    {guard : State → Label → Prop} {first last : State} {labels : List Label}
    {label : Label} (meets : StepsMeet step guard first (labels ++ [label]))
    (runs : run step first labels = some last) : guard last label := by
  induction labels generalizing first with
  | nil =>
      obtain rfl := Option.some.inj runs
      exact meets.1
  | cons head labels ih =>
      rw [run_cons, Option.bind_eq_some_iff] at runs
      obtain ⟨next, steps, rest⟩ := runs
      exact ih (meets.2 next steps) rest

/-- Two guards are met at once. -/
theorem StepsMeet.and {step : State → Label → Option State}
    {guard other : State → Label → Prop} {state : State}
    {labels : List Label} (first : StepsMeet step guard state labels)
    (second : StepsMeet step other state labels) :
    StepsMeet step (fun state label => guard state label ∧ other state label)
      state labels := by
  induction labels generalizing state with
  | nil => trivial
  | cons label labels ih =>
      exact ⟨⟨first.1, second.1⟩, fun next steps =>
        ih (first.2 next steps) (second.2 next steps)⟩

theorem StepsMeet.append_last {step : State → Label → Option State}
    {guard : State → Label → Prop} {first : State} {labels : List Label}
    {label : Label} (meets : StepsMeet step guard first labels)
    (atEnd : ∀ last, run step first labels = some last → guard last label) :
    StepsMeet step guard first (labels ++ [label]) := by
  induction labels generalizing first with
  | nil => exact ⟨atEnd first rfl, fun _ _ => trivial⟩
  | cons head labels ih =>
      refine ⟨meets.1, fun next steps => ih (meets.2 next steps) ?_⟩
      intro last runs
      apply atEnd
      rw [run_cons, steps]
      exact runs

/-- The end of a run whose steps meet the guard is reachable under it. -/
theorem Reachable.append_run {initial : State → Prop}
    {step : State → Label → Option State} {guard : State → Label → Prop}
    {first last : State} {labels : List Label}
    (reached : Reachable initial step guard first)
    (meets : StepsMeet step guard first labels)
    (runs : run step first labels = some last) :
    Reachable initial step guard last := by
  induction labels generalizing first with
  | nil =>
      obtain rfl := Option.some.inj runs
      exact reached
  | cons label labels ih =>
      rw [run_cons, Option.bind_eq_some_iff] at runs
      obtain ⟨next, steps, rest⟩ := runs
      exact ih (.next reached meets.1 steps) (meets.2 next steps) rest

/-- When a guarded step from `property` returns and keeps `property`, so does
a run whose steps meet the guard. -/
theorem exists_run_of_stepsMeet {step : State → Label → Option State}
    {guard : State → Label → Prop} {property : State → Prop} {first : State}
    {labels : List Label}
    (progress : ∀ state, ∀ label ∈ labels, property state →
      guard state label →
        ∃ next, step state label = some next ∧ property next)
    (starts : property first) (meets : StepsMeet step guard first labels) :
    ∃ last, run step first labels = some last ∧ property last := by
  induction labels generalizing first with
  | nil => exact ⟨first, rfl, starts⟩
  | cons label labels ih =>
      obtain ⟨next, steps, kept⟩ :=
        progress first label (by simp) starts meets.1
      obtain ⟨last, runs, lastKept⟩ := ih
        (fun state other member => progress state other (by simp [member]))
        kept (meets.2 next steps)
      refine ⟨last, ?_, lastKept⟩
      rw [run_cons, steps]
      exact runs

/-- An invariant that the guarded steps keep holds in every state of a guarded
run. -/
theorem statesMeet_of_stepsMeet {step : State → Label → Option State}
    {guard : State → Label → Prop} {invariant : State → Prop}
    (keeps : ∀ before label after, invariant before → guard before label →
      step before label = some after → invariant after)
    {state : State} (starts : invariant state) {labels : List Label}
    (meets : StepsMeet step guard state labels) :
    StatesMeet step invariant state labels := by
  induction labels generalizing state with
  | nil => exact starts
  | cons label labels ih =>
      refine ⟨starts, ?_⟩
      intro next steps
      exact ih (keeps _ _ _ starts meets.1 steps) (meets.2 next steps)

theorem StatesMeet.weaken {step : State → Label → Option State}
    {property weaker : State → Prop}
    (implied : ∀ state, property state → weaker state) {state : State}
    {labels : List Label} (meet : StatesMeet step property state labels) :
    StatesMeet step weaker state labels := by
  induction labels generalizing state with
  | nil => exact implied state meet
  | cons label labels ih =>
      exact ⟨implied state meet.1, fun next steps => ih (meet.2 next steps)⟩

/-- What a guarded step from the states of an invariant does, every step of a
guarded run does. -/
theorem StatesMeet.steps {step : State → Label → Option State}
    {guard meaning : State → Label → Prop} {invariant : State → Prop}
    (implied : ∀ state label, invariant state → guard state label →
      meaning state label)
    {state : State} {labels : List Label}
    (states : StatesMeet step invariant state labels)
    (meets : StepsMeet step guard state labels) :
    StepsMeet step meaning state labels := by
  induction labels generalizing state with
  | nil => trivial
  | cons label labels ih =>
      exact ⟨implied state label states.1 meets.1,
        fun next steps => ih (states.2 next steps) (meets.2 next steps)⟩

/-- Labels that meet a guard in every state. -/
theorem stepsMeet_of_forall {step : State → Label → Option State}
    {guard : State → Label → Prop} {labels : List Label}
    (meets : ∀ label ∈ labels, ∀ state, guard state label) (state : State) :
    StepsMeet step guard state labels := by
  induction labels generalizing state with
  | nil => trivial
  | cons label labels ih =>
      obtain ⟨first, rest⟩ := List.forall_mem_cons.mp meets
      exact ⟨first state, fun next _ => ih rest next⟩

theorem stepsMeet_true (step : State → Label → Option State) (state : State)
    (labels : List Label) :
    StepsMeet step (fun _ _ => True) state labels :=
  stepsMeet_of_forall (fun _ _ _ => trivial) state

/-- Without a guard every run stays reachable. -/
theorem Reachable.of_run {initial : State → Prop}
    {step : State → Label → Option State} {first last : State}
    {labels : List Label} (starts : initial first)
    (runs : run step first labels = some last) :
    Reachable initial step (fun _ _ => True) last :=
  Reachable.append_run (.start starts) (stepsMeet_true step first labels) runs

/-- When, from states of an invariant and for valid labels, the steps that meet
`guard` keep the invariant and the others leave `property`, a run of valid
steps stays in `property` exactly if all its steps meet `guard`. -/
theorem statesMeet_iff_stepsMeet {step : State → Label → Option State}
    {guard valid : State → Label → Prop} {property invariant : State → Prop}
    (implies : ∀ state, invariant state → property state)
    (stuck : ∀ state label, invariant state → valid state label →
      step state label = none → guard state label)
    (keeps : ∀ before label after, invariant before → valid before label →
      guard before label → step before label = some after → invariant after)
    (breaks : ∀ before label after, invariant before → valid before label →
      ¬ guard before label → step before label = some after →
        ¬ property after)
    {state : State} (starts : invariant state) {labels : List Label}
    (inputs : StepsMeet step valid state labels) :
    StatesMeet step property state labels ↔
      StepsMeet step guard state labels := by
  induction labels generalizing state with
  | nil => exact ⟨fun _ => trivial, fun _ => implies state starts⟩
  | cons label labels ih =>
      obtain ⟨isValid, rest⟩ := inputs
      constructor
      · rintro ⟨_, states⟩
        have meets : guard state label := by
          apply Classical.byContradiction
          intro unmet
          cases steps : step state label with
          | none => exact unmet (stuck _ _ starts isValid steps)
          | some next =>
              exact breaks _ _ _ starts isValid unmet steps
                (states next steps).first
        refine ⟨meets, ?_⟩
        intro next steps
        exact (ih (keeps _ _ _ starts isValid meets steps)
          (rest next steps)).mp (states next steps)
      · rintro ⟨meets, later⟩
        refine ⟨implies state starts, ?_⟩
        intro next steps
        exact (ih (keeps _ _ _ starts isValid meets steps)
          (rest next steps)).mpr (later next steps)

end TransitionRuns

end MbedtlsKcp
