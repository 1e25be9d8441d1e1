import MbedtlsKcp.LinkedSearches
import MbedtlsKcp.TransitionRuns
import Mathlib.Data.Fintype.Order

/-!
# The hierarchical state machine

`state_machine.c` looks for a transition in the table of the current state and
then in those of its parents, enters a group through its entry states and calls
the actions of the states it leaves and enters.
-/

namespace MbedtlsKcp

namespace StateMachine

open LinkedChains LinkedSearches TransitionRuns

structure Event (Data : Type) where
  type : Int
  data : Data

/-- `guard` and `action` are pointers to functions. -/
structure Transition (Place Data Routine : Type) where
  eventType : Int
  condition : Data
  guard : Option Routine
  action : Option Routine
  nextState : Option Place

/-- `numTransitions` is the length of `transitions`. -/
structure State (Place Data Routine : Type) where
  parentState : Option Place
  entryState : Option Place
  transitions : List (Transition Place Data Routine)
  data : Data
  entryAction : Option Routine
  exitAction : Option Routine

/-- `struct stateMachine`. -/
structure Fsm (Place : Type) where
  currentState : Option Place
  previousState : Option Place
  errorState : Option Place
deriving DecidableEq

/-- `stateM_handleEventRetVals`. -/
inductive RetVal
  | errArg
  | errorStateReached
  | stateChanged
  | stateLoopSelf
  | noStateChange
  | finalStateReached
deriving DecidableEq

/-- The calls of functions of the user.  An exit or an entry action is the one
of the state at `place`. -/
inductive Call (Place Data Routine : Type)
  | guard (routine : Routine) (condition : Data) (event : Event Data)
  | exitAction (place : Place) (routine : Routine) (data : Data)
      (event : Event Data)
  | action (routine : Routine) (currentData : Data) (event : Event Data)
      (newData : Data)
  | entryAction (place : Place) (routine : Routine) (data : Data)
      (event : Event Data)

variable {Place Data Routine : Type}

/-- `accepts` is the answer of a guard, after all calls so far and its own. -/
def consider (accepts : List (Call Place Data Routine) → Bool)
    (event : Event Data) (transition : Transition Place Data Routine)
    (calls : List (Call Place Data Routine)) :
    Option (Transition Place Data Routine) ×
      List (Call Place Data Routine) :=
  if transition.eventType = event.type then
    match transition.guard with
    | none => (some transition, calls)
    | some routine =>
        let asked := calls ++ [.guard routine transition.condition event]
        if accepts asked then (some transition, asked) else (none, asked)
  else (none, calls)

def getTransition (accepts : List (Call Place Data Routine) → Bool)
    (event : Event Data) (state : State Place Data Routine)
    (calls : List (Call Place Data Routine)) :
    Option (Transition Place Data Routine) ×
      List (Call Place Data Routine) :=
  sweep (consider accepts event) state.transitions calls

section Machine

variable (chart : Place → State Place Data Routine)

/-- The call of the entry action of a state, if there are both. -/
def entryCalls (event : Event Data) (place : Place) :
    List (Call Place Data Routine) :=
  match (chart place).entryAction with
  | none => []
  | some routine => [.entryAction place routine (chart place).data event]

def exitCalls (event : Event Data) (place : Place) :
    List (Call Place Data Routine) :=
  match (chart place).exitAction with
  | none => []
  | some routine => [.exitAction place routine (chart place).data event]

def actionCalls (event : Event Data)
    (transition : Transition Place Data Routine) (current next : Place) :
    List (Call Place Data Routine) :=
  match transition.action with
  | none => []
  | some routine =>
      [.action routine (chart current).data event (chart next).data]

def goToErrorState (fsm : Fsm Place) (event : Event Data)
    (calls : List (Call Place Data Routine)) :
    RetVal × Fsm Place × List (Call Place Data Routine) :=
  (.errorStateReached,
    { fsm with
      previousState := fsm.currentState
      currentState := fsm.errorState },
    calls ++ fsm.errorState.toList.flatMap (entryCalls chart event))

variable [DecidableEq Place]

/-- What `stateM_handleEvent` does once it has the state behind the entry
states. -/
def take (fsm : Fsm Place) (event : Event Data) (current next : Place)
    (transition : Transition Place Data Routine)
    (calls : List (Call Place Data Routine)) :
    RetVal × Fsm Place × List (Call Place Data Routine) :=
  (if next = current then .stateLoopSelf
    else if some next = fsm.errorState then .errorStateReached
    else if (chart next).transitions.isEmpty then .finalStateReached
    else .stateChanged,
    { fsm with
      previousState := some current
      currentState := some next },
    calls ++ (if next ≠ current then exitCalls chart event current else []) ++
      actionCalls chart event transition current next ++
      (if next ≠ current then entryCalls chart event next else []))

/-- `stateM_handleEvent` of arguments that are not `NULL`; the two loops have
fuel. -/
def handleEvent (accepts : List (Call Place Data Routine) → Bool) (fuel : Nat)
    (fsm : Fsm Place) (event : Event Data)
    (calls : List (Call Place Data Routine)) :
    Option (RetVal × Fsm Place × List (Call Place Data Routine)) :=
  match fsm.currentState with
  | none => some (goToErrorState chart fsm event calls)
  | some current =>
      if (chart current).transitions.isEmpty then
        some (.noStateChange, fsm, calls)
      else
        (search (fun place => (chart place).parentState)
          (fun place => getTransition accepts event (chart place)) fuel
          (some current) calls).bind fun
          | (none, calls) => some (.noStateChange, fsm, calls)
          | (some transition, calls) =>
              match transition.nextState with
              | none => some (goToErrorState chart fsm event calls)
              | some target =>
                  (settle (fun place => (chart place).entryState) fuel
                    target).map fun next =>
                      take chart fsm event current next transition calls

def stateMHandleEvent (accepts : List (Call Place Data Routine) → Bool)
    (fuel : Nat) (fsm : Option (Fsm Place))
    (event : Option (Event Data)) (calls : List (Call Place Data Routine)) :
    Option (RetVal × Option (Fsm Place) ×
      List (Call Place Data Routine)) :=
  match fsm, event with
  | some fsm, some event =>
      (handleEvent chart accepts fuel fsm event calls).map
        fun (code, fsm, calls) => (code, some fsm, calls)
  | fsm, _ => some (.errArg, fsm, calls)

end Machine

def stateMInit (initialState errorState : Option Place) : Fsm Place where
  currentState := initialState
  previousState := none
  errorState := errorState

/-- `stateM_stopped`; no answer when the current state is `NULL`. -/
def stateMStopped (chart : Place → State Place Data Routine) :
    Option (Fsm Place) → Option Bool
  | none => some true
  | some fsm =>
      fsm.currentState.map fun current => (chart current).transitions.isEmpty

section Meaning

variable (chart : Place → State Place Data Routine)
variable (accepts : List (Call Place Data Routine) → Bool)

/-- The transitions of some states, in one table. -/
def table (family : List Place) : List (Transition Place Data Routine) :=
  family.flatMap fun place => (chart place).transitions

/-- The state and its ancestors up to where their parents stop. -/
def Lineage (current : Place) (family : List Place) (stop : Option Place) :
    Prop :=
  Segment (fun place => (chart place).parentState) (some current) family stop

/-- The state behind the entry states of `target`. -/
def Innermost (target next : Place) : Prop :=
  ∃ groups, Segment (fun place => (chart place).entryState) (some target)
    (groups ++ [next]) none

variable [DecidableEq Place]

/-- What an event does: the transitions of the current state and its ancestors
are considered in one table. -/
inductive Handles (fsm : Fsm Place) (event : Event Data)
    (calls : List (Call Place Data Routine)) :
    RetVal × Fsm Place × List (Call Place Data Routine) → Prop
  | lost (nowhere : fsm.currentState = none) :
      Handles fsm event calls (goToErrorState chart fsm event calls)
  | final {current : Place} (here : fsm.currentState = some current)
      (closed : (chart current).transitions = []) :
      Handles fsm event calls (.noStateChange, fsm, calls)
  | ignored {current : Place} {family : List Place}
      {asked : List (Call Place Data Routine)}
      (here : fsm.currentState = some current)
      (opened : (chart current).transitions ≠ [])
      (lineage : Lineage chart current family none)
      (refused : sweep (consider accepts event) (table chart family) calls =
        (none, asked)) :
      Handles fsm event calls (.noStateChange, fsm, asked)
  | undefined {current : Place} {family : List Place} {stop : Option Place}
      {transition : Transition Place Data Routine}
      {asked : List (Call Place Data Routine)}
      (here : fsm.currentState = some current)
      (opened : (chart current).transitions ≠ [])
      (lineage : Lineage chart current family stop)
      (chosen : sweep (consider accepts event) (table chart family) calls =
        (some transition, asked))
      (nowhere : transition.nextState = none) :
      Handles fsm event calls (goToErrorState chart fsm event asked)
  | taken {current : Place} {family : List Place} {stop : Option Place}
      {transition : Transition Place Data Routine}
      {asked : List (Call Place Data Routine)} {target next : Place}
      (here : fsm.currentState = some current)
      (opened : (chart current).transitions ≠ [])
      (lineage : Lineage chart current family stop)
      (chosen : sweep (consider accepts event) (table chart family) calls =
        (some transition, asked))
      (leads : transition.nextState = some target)
      (innermost : Innermost chart target next) :
      Handles fsm event calls
        (take chart fsm event current next transition asked)

end Meaning

section Exactness

variable {chart : Place → State Place Data Routine}
variable {accepts : List (Call Place Data Routine) → Bool}
variable {event : Event Data} {current target next : Place}
variable {calls : List (Call Place Data Routine)}
variable {found : Option (Transition Place Data Routine) ×
  List (Call Place Data Routine)}

/-- The loop over the ancestors considers their transitions in one table. -/
theorem exists_considered_iff :
    (∃ fuel, search (fun place => (chart place).parentState)
      (fun place => getTransition accepts event (chart place)) fuel
      (some current) calls = some found) ↔
      ∃ family stop, Lineage chart current family stop ∧
        sweep (consider accepts event) (table chart family) calls = found ∧
          (found.1 = none → stop = none) := by
  rw [exists_search_iff]
  apply exists_congr
  intro family
  apply exists_congr
  intro stop
  have flat : sweep (fun place => getTransition accepts event (chart place))
      family calls =
      sweep (consider accepts event) (table chart family) calls :=
    sweep_flatMap (fun place => (chart place).transitions) family calls
  rw [flat]
  exact Iff.rfl

theorem exists_innermost_iff :
    (∃ fuel, settle (fun place => (chart place).entryState) fuel target =
      some next) ↔ Innermost chart target next :=
  exists_settle_iff

variable [DecidableEq Place] {fsm : Fsm Place} {fuel : Nat}
variable {result : RetVal × Fsm Place ×
  List (Call Place Data Routine)}

theorem Handles.of_handleEvent
    (ends : handleEvent chart accepts fuel fsm event calls = some result) :
    Handles chart accepts fsm event calls result := by
  cases here : fsm.currentState with
  | none =>
      simp only [handleEvent, here, Option.some.injEq] at ends
      subst ends
      exact .lost here
  | some current =>
      simp only [handleEvent, here] at ends
      split at ends
      · case isTrue closed =>
          obtain rfl := Option.some.inj ends
          exact .final here (List.isEmpty_iff.mp closed)
      · case isFalse opened =>
          replace opened := mt List.isEmpty_iff.mpr opened
          rw [Option.bind_eq_some_iff] at ends
          obtain ⟨found, searched, rest⟩ := ends
          obtain ⟨family, stop, lineage, swept, stops⟩ :=
            exists_considered_iff.mp ⟨fuel, searched⟩
          rcases found with ⟨_ | transition, asked⟩
          · obtain rfl := Option.some.inj rest
            obtain rfl := stops rfl
            exact .ignored here opened lineage swept
          · cases leads : transition.nextState with
            | none =>
                simp only [leads, Option.some.injEq] at rest
                subst rest
                exact .undefined here opened lineage swept leads
            | some target =>
                simp only [leads, Option.map_eq_some_iff] at rest
                obtain ⟨next, settled, rfl⟩ := rest
                exact .taken here opened lineage swept leads
                  (exists_innermost_iff.mp ⟨fuel, settled⟩)

theorem Handles.exists_handleEvent
    (handles : Handles chart accepts fsm event calls result) :
    ∃ fuel, handleEvent chart accepts fuel fsm event calls = some result := by
  cases handles with
  | lost nowhere => exact ⟨0, by simp [handleEvent, nowhere]⟩
  | final here closed => exact ⟨0, by simp [handleEvent, here, closed]⟩
  | ignored here opened lineage refused =>
      obtain ⟨fuel, searched⟩ :=
        exists_considered_iff.mpr ⟨_, _, lineage, refused, fun _ => rfl⟩
      exact ⟨fuel, by simp [handleEvent, here, opened, searched]⟩
  | undefined here opened lineage chosen nowhere =>
      obtain ⟨fuel, searched⟩ :=
        exists_considered_iff.mpr ⟨_, _, lineage, chosen, by simp⟩
      exact ⟨fuel, by simp [handleEvent, here, opened, searched, nowhere]⟩
  | taken here opened lineage chosen leads innermost =>
      obtain ⟨above, searched⟩ :=
        exists_considered_iff.mpr ⟨_, _, lineage, chosen, by simp⟩
      obtain ⟨inside, settled⟩ := exists_innermost_iff.mpr innermost
      have searchedBoth := search_more searched (Nat.le_max_left above inside)
      have settledBoth := settle_more settled (Nat.le_max_right above inside)
      refine ⟨max above inside, ?_⟩
      simp [handleEvent, here, opened, searchedBoth, leads, settledBoth]

theorem exists_handleEvent_iff :
    (∃ fuel, handleEvent chart accepts fuel fsm event calls = some result) ↔
      Handles chart accepts fsm event calls result := by
  constructor
  · rintro ⟨fuel, ends⟩
    exact .of_handleEvent ends
  · exact Handles.exists_handleEvent

/-- The nested loops of `stateM_handleEvent` end, and with which result, as the
one table says. -/
theorem exists_stateMHandleEvent_iff
    (chart : Place → State Place Data Routine)
    (accepts : List (Call Place Data Routine) → Bool)
    (fsm after : Fsm Place) (event : Event Data) (code : RetVal)
    (calls more : List (Call Place Data Routine)) :
    (∃ fuel, stateMHandleEvent chart accepts fuel (some fsm) (some event)
      calls = some (code, some after, more)) ↔
      Handles chart accepts fsm event calls (code, after, more) := by
  rw [← exists_handleEvent_iff]
  apply exists_congr
  intro fuel
  simp only [stateMHandleEvent]
  cases handleEvent chart accepts fuel fsm event calls with
  | none => simp
  | some result => simp [Prod.ext_iff]

end Exactness

section Runs

/-- The machine and the calls it has made. -/
structure Session (Place Data Routine : Type) where
  fsm : Fsm Place
  calls : List (Call Place Data Routine)

variable [DecidableEq Place]

/-- An event is handled; the label holds the fuel that the loops get. -/
def Session.handle (chart : Place → State Place Data Routine)
    (accepts : List (Call Place Data Routine) → Bool)
    (session : Session Place Data Routine) (label : Nat × Event Data) :
    Option (Session Place Data Routine) :=
  (handleEvent chart accepts label.1 session.fsm label.2 session.calls).map
    fun result => { fsm := result.2.1, calls := result.2.2 }

/-- Behind `stateM_init`. -/
def Session.Starts (initialState errorState : Option Place)
    (session : Session Place Data Routine) : Prop :=
  session = { fsm := stateMInit initialState errorState, calls := [] }

abbrev Session.Reached (chart : Place → State Place Data Routine)
    (accepts : List (Call Place Data Routine) → Bool)
    (initialState errorState : Option Place) :
    Session Place Data Routine → Prop :=
  Reachable (Session.Starts initialState errorState)
    (Session.handle chart accepts) fun _ _ => True

def Call.enters (place : Place) : Call Place Data Routine → Bool
  | .entryAction entered _ _ _ => entered = place
  | _ => false

def Call.leaves (place : Place) : Call Place Data Routine → Bool
  | .exitAction left _ _ _ => left = place
  | _ => false

/-- How often the entry action of `place` was called. -/
def timesEntered (calls : List (Call Place Data Routine)) (place : Place) :
    Nat :=
  calls.countP (Call.enters place)

def timesLeft (calls : List (Call Place Data Routine)) (place : Place) : Nat :=
  calls.countP (Call.leaves place)

/-- `1` when `place` is the state. -/
def stays (place : Place) (state : Option Place) : Nat :=
  if state = some place then 1 else 0

/-- Every transition has a next state. -/
def Defined (chart : Place → State Place Data Routine) : Prop :=
  ∀ place, ∀ transition ∈ (chart place).transitions,
    transition.nextState ≠ none

variable {chart : Place → State Place Data Routine}
variable {accepts : List (Call Place Data Routine) → Bool}
variable {event : Event Data} {place current next : Place}
variable {calls more asked : List (Call Place Data Routine)}
variable {transition : Transition Place Data Routine}

@[simp]
theorem timesEntered_append :
    timesEntered (calls ++ more) place =
      timesEntered calls place + timesEntered more place :=
  List.countP_append

@[simp]
theorem timesLeft_append :
    timesLeft (calls ++ more) place =
      timesLeft calls place + timesLeft more place :=
  List.countP_append

@[simp]
theorem timesEntered_nil :
    timesEntered ([] : List (Call Place Data Routine)) place = 0 :=
  rfl

@[simp]
theorem timesLeft_nil :
    timesLeft ([] : List (Call Place Data Routine)) place = 0 :=
  rfl

@[simp]
theorem timesEntered_exitCalls :
    timesEntered (exitCalls chart event current) place = 0 := by
  cases action : (chart current).exitAction <;>
    simp [exitCalls, action, timesEntered, Call.enters]

@[simp]
theorem timesLeft_entryCalls :
    timesLeft (entryCalls chart event current) place = 0 := by
  cases action : (chart current).entryAction <;>
    simp [entryCalls, action, timesLeft, Call.leaves]

@[simp]
theorem timesEntered_actionCalls :
    timesEntered (actionCalls chart event transition current next) place =
      0 := by
  cases action : transition.action <;>
    simp [actionCalls, action, timesEntered, Call.enters]

@[simp]
theorem timesLeft_actionCalls :
    timesLeft (actionCalls chart event transition current next) place = 0 := by
  cases action : transition.action <;>
    simp [actionCalls, action, timesLeft, Call.leaves]

theorem timesEntered_entryCalls (acts : (chart place).entryAction ≠ none) :
    timesEntered (entryCalls chart event current) place =
      stays place (some current) := by
  by_cases same : current = place
  · subst same
    obtain ⟨routine, action⟩ := Option.ne_none_iff_exists'.mp acts
    simp [entryCalls, action, timesEntered, Call.enters, stays]
  · cases action : (chart current).entryAction <;>
      simp [entryCalls, action, timesEntered, Call.enters, stays, same]

theorem timesLeft_exitCalls (acts : (chart place).exitAction ≠ none) :
    timesLeft (exitCalls chart event current) place =
      stays place (some current) := by
  by_cases same : current = place
  · subst same
    obtain ⟨routine, action⟩ := Option.ne_none_iff_exists'.mp acts
    simp [exitCalls, action, timesLeft, Call.leaves, stays]
  · cases action : (chart current).exitAction <;>
      simp [exitCalls, action, timesLeft, Call.leaves, stays, same]

/-- Guards enter and leave nothing. -/
theorem consider_keeps (transition : Transition Place Data Routine)
    (calls : List (Call Place Data Routine)) :
    timesEntered (consider accepts event transition calls).2 place =
        timesEntered calls place ∧
      timesLeft (consider accepts event transition calls).2 place =
        timesLeft calls place := by
  unfold consider
  split
  · cases transition.guard with
    | none => exact ⟨rfl, rfl⟩
    | some routine =>
        dsimp only
        split <;>
          simp [timesEntered, timesLeft, Call.enters, Call.leaves]
  · exact ⟨rfl, rfl⟩

theorem sweep_consider_keeps (accepts : List (Call Place Data Routine) → Bool)
    (event : Event Data) (place : Place)
    (calls : List (Call Place Data Routine))
    (transitions : List (Transition Place Data Routine)) :
    timesEntered (sweep (consider accepts event) transitions calls).2 place =
        timesEntered calls place ∧
      timesLeft (sweep (consider accepts event) transitions calls).2 place =
        timesLeft calls place :=
  sweep_keeps
    (fun notes =>
      timesEntered notes place = timesEntered calls place ∧
        timesLeft notes place = timesLeft calls place)
    (fun transition notes same =>
      ⟨(consider_keeps transition notes).1.trans same.1,
        (consider_keeps transition notes).2.trans same.2⟩)
    transitions ⟨rfl, rfl⟩

theorem asked_keeps (place : Place) {family : List Place}
    {found : Option (Transition Place Data Routine)}
    (swept : sweep (consider accepts event) (table chart family) calls =
      (found, asked)) :
    timesEntered asked place = timesEntered calls place ∧
      timesLeft asked place = timesLeft calls place := by
  have keeps := sweep_consider_keeps accepts event place calls
    (table chart family)
  rw [swept] at keeps
  exact keeps

omit [DecidableEq Place] in
/-- A transition that was chosen has a next state. -/
theorem Defined.nextState {family : List Place}
    (defined : Defined chart)
    (chosen : sweep (consider accepts event) (table chart family) calls =
      (some transition, asked)) :
    transition.nextState ≠ none := by
  obtain ⟨item, member, before, visits⟩ := exists_visit_of_sweep chosen
  obtain rfl : item = transition := by
    unfold consider at visits
    split at visits
    · cases guard : item.guard with
      | none => simpa [guard] using congrArg Prod.fst visits
      | some routine =>
          rw [guard] at visits
          dsimp only at visits
          split at visits
          · simpa using congrArg Prod.fst visits
          · simp at visits
    · simp at visits
  obtain ⟨state, -, held⟩ := List.mem_flatMap.mp member
  exact defined state item held

theorem timesEntered_of_goToErrorState (fsm : Fsm Place)
    (acts : (chart place).entryAction ≠ none) :
    timesEntered (goToErrorState chart fsm event calls).2.2 place =
      timesEntered calls place + stays place fsm.errorState := by
  cases error : fsm.errorState with
  | none => simp [goToErrorState, error, stays]
  | some errorPlace =>
      simp [goToErrorState, error, timesEntered_entryCalls acts]

@[simp]
theorem timesLeft_of_goToErrorState (fsm : Fsm Place) :
    timesLeft (goToErrorState chart fsm event calls).2.2 place =
      timesLeft calls place := by
  cases error : fsm.errorState <;> simp [goToErrorState, error]

/-- A state that is taken balances the action of the state it leaves. -/
theorem take_balances (fsm : Fsm Place) (event : Event Data)
    (current next : Place) (transition : Transition Place Data Routine)
    (calls : List (Call Place Data Routine))
    (enters : (chart place).entryAction ≠ none)
    (leaves : (chart place).exitAction ≠ none) :
    timesLeft (take chart fsm event current next transition calls).2.2 place +
        stays place (some next) + timesEntered calls place =
      timesEntered (take chart fsm event current next transition calls).2.2
          place + stays place (some current) + timesLeft calls place := by
  by_cases same : next = current
  · simp [take, same]
    omega
  · simp [take, same, timesEntered_entryCalls enters,
      timesLeft_exitCalls leaves]
    omega

/-- One event: what the calls of the two actions add. -/
structure Balances (chart : Place → State Place Data Routine) (place : Place)
    (fsm : Fsm Place) (calls : List (Call Place Data Routine))
    (result : RetVal × Fsm Place × List (Call Place Data Routine)) :
    Prop where
  bounded : timesLeft result.2.2 place +
      stays place result.2.1.currentState + timesEntered calls place ≤
    timesEntered result.2.2 place + stays place fsm.currentState +
      timesLeft calls place
  exact : Defined chart → fsm.currentState ≠ none →
    timesLeft result.2.2 place +
        stays place result.2.1.currentState + timesEntered calls place =
      timesEntered result.2.2 place + stays place fsm.currentState +
        timesLeft calls place ∧ result.2.1.currentState ≠ none

theorem Handles.balances {fsm : Fsm Place}
    {result : RetVal × Fsm Place × List (Call Place Data Routine)}
    (handles : Handles chart accepts fsm event calls result)
    (enters : (chart place).entryAction ≠ none)
    (leaves : (chart place).exitAction ≠ none) :
    Balances chart place fsm calls result := by
  cases handles with
  | lost nowhere =>
      constructor
      · rw [timesEntered_of_goToErrorState fsm enters,
          timesLeft_of_goToErrorState]
        simp only [goToErrorState]
        omega
      · intro _ somewhere
        exact absurd nowhere somewhere
  | final here closed =>
      constructor
      · dsimp only
        omega
      · intro _ somewhere
        exact ⟨by dsimp only; omega, somewhere⟩
  | ignored here opened lineage refused =>
      obtain ⟨entered, left⟩ := asked_keeps place refused
      constructor
      · dsimp only
        omega
      · intro _ somewhere
        exact ⟨by dsimp only; omega, somewhere⟩
  | undefined here opened lineage chosen nowhere =>
      obtain ⟨askedEntered, askedLeft⟩ := asked_keeps place chosen
      constructor
      · rw [timesEntered_of_goToErrorState fsm enters,
          timesLeft_of_goToErrorState]
        simp only [goToErrorState]
        omega
      · intro defined _
        exact absurd nowhere (defined.nextState chosen)
  | @taken current family stop transition asked target next here opened lineage
      chosen leads innermost =>
      obtain ⟨askedEntered, askedLeft⟩ := asked_keeps place chosen
      have balanced := take_balances fsm event current next transition asked
        enters leaves
      have moved : (take chart fsm event current next transition
          asked).2.1.currentState = some next :=
        rfl
      constructor
      · rw [moved, here]
        omega
      · intro _ _
        rw [moved, here]
        exact ⟨by omega, by simp⟩

theorem Session.handles {session after : Session Place Data Routine}
    {label : Nat × Event Data}
    (steps : session.handle chart accepts label = some after) :
    ∃ code, Handles chart accepts session.fsm label.2 session.calls
      (code, after.fsm, after.calls) := by
  obtain ⟨result, ends, rfl⟩ := Option.map_eq_some_iff.mp steps
  exact ⟨result.1, .of_handleEvent ends⟩

/-- Over whole runs, whatever the events are and the guards answer: an exit
action is called only for a state that was entered, and a machine whose
transitions all have a next state leaves whatever it has entered but the state
it is in. -/
theorem Session.Reached.balanced {initialState errorState : Option Place}
    {session : Session Place Data Routine}
    (reached : Session.Reached chart accepts initialState errorState session)
    (enters : (chart place).entryAction ≠ none)
    (leaves : (chart place).exitAction ≠ none) :
    timesLeft session.calls place + stays place session.fsm.currentState ≤
        timesEntered session.calls place + stays place initialState ∧
      (Defined chart → initialState ≠ none →
        timesLeft session.calls place + stays place session.fsm.currentState =
            timesEntered session.calls place + stays place initialState ∧
          session.fsm.currentState ≠ none) := by
  induction reached with
  | start starts =>
      obtain rfl := starts
      constructor
      · simp [stateMInit]
      · intro _ somewhere
        simpa [stateMInit] using somewhere
  | next _ _ steps ih =>
      obtain ⟨bounded, exact⟩ := ih
      obtain ⟨code, handles⟩ := Session.handles steps
      have balances := handles.balances enters leaves
      constructor
      · have grows := balances.bounded
        dsimp only at grows
        omega
      · intro defined somewhere
        obtain ⟨same, here⟩ := exact defined somewhere
        obtain ⟨grows, there⟩ := balances.exact defined here
        dsimp only at grows
        exact ⟨by omega, there⟩

/-- Links that do not run in circles let every event be handled. -/
theorem exists_handleEvent_of_grounded
    (up : Grounded fun place => (chart place).parentState)
    (down : Grounded fun place => (chart place).entryState)
    (accepts : List (Call Place Data Routine) → Bool)
    (fsm : Fsm Place) (event : Event Data)
    (calls : List (Call Place Data Routine)) :
    ∃ fuel result, handleEvent chart accepts fuel fsm event calls =
      some result := by
  suffices handled : ∃ result, Handles chart accepts fsm event calls result by
    obtain ⟨result, handles⟩ := handled
    obtain ⟨fuel, ends⟩ := handles.exists_handleEvent
    exact ⟨fuel, result, ends⟩
  cases here : fsm.currentState with
  | none => exact ⟨_, .lost here⟩
  | some current =>
      by_cases closed : (chart current).transitions = []
      · exact ⟨_, .final here closed⟩
      · obtain ⟨fuel, found, searched⟩ := up.exists_search
          (fun place => getTransition accepts event (chart place))
          (some current) calls
        obtain ⟨family, stop, lineage, swept, stops⟩ :=
          exists_considered_iff.mp ⟨fuel, searched⟩
        rcases found with ⟨_ | transition, asked⟩
        · obtain rfl := stops rfl
          exact ⟨_, .ignored here closed lineage swept⟩
        · cases leads : transition.nextState with
          | none => exact ⟨_, .undefined here closed lineage swept leads⟩
          | some target =>
              obtain ⟨inside, next, settled⟩ := down.exists_settle target
              exact ⟨_, .taken here closed lineage swept leads
                (exists_innermost_iff.mp ⟨inside, settled⟩)⟩

/-- A machine that has stopped handles any events without a change. -/
theorem run_of_stopped {session : Session Place Data Routine}
    (stopped : stateMStopped chart (some session.fsm) = some true)
    (labels : List (Nat × Event Data)) :
    run (Session.handle chart accepts) session labels = some session := by
  obtain ⟨current, here, closed⟩ := Option.map_eq_some_iff.mp stopped
  induction labels with
  | nil => rfl
  | cons label labels ih =>
      simp [run_cons, Session.handle, handleEvent, here, closed, ih]

/-- The machine is not in a group, unless one was named as its initial or its
error state. -/
def Placed (chart : Place → State Place Data Routine)
    (initialState errorState : Option Place) (fsm : Fsm Place) : Prop :=
  fsm.errorState = errorState ∧
    ∀ place, fsm.currentState = some place →
      initialState = some place ∨ errorState = some place ∨
        (chart place).entryState = none

omit [DecidableEq Place] in
theorem Innermost.ends {target : Place}
    (innermost : Innermost chart target next) :
    (chart next).entryState = none := by
  obtain ⟨groups, segment⟩ := innermost
  obtain ⟨middle, -, same, link⟩ := segment_append.mp segment
  exact link

theorem Handles.placed {fsm : Fsm Place}
    {initialState errorState : Option Place}
    {result : RetVal × Fsm Place × List (Call Place Data Routine)}
    (handles : Handles chart accepts fsm event calls result)
    (placed : Placed chart initialState errorState fsm) :
    Placed chart initialState errorState result.2.1 := by
  cases handles with
  | final here closed => exact placed
  | ignored here opened lineage refused => exact placed
  | lost nowhere =>
      refine ⟨placed.1, ?_⟩
      intro place there
      exact .inr (.inl (placed.1 ▸ there))
  | undefined here opened lineage chosen nowhere =>
      refine ⟨placed.1, ?_⟩
      intro place there
      exact .inr (.inl (placed.1 ▸ there))
  | taken here opened lineage chosen leads innermost =>
      refine ⟨placed.1, ?_⟩
      intro place there
      obtain rfl := Option.some.inj there
      exact .inr (.inr innermost.ends)

theorem exists_run_of_placed
    (up : Grounded fun place => (chart place).parentState)
    (down : Grounded fun place => (chart place).entryState)
    {initialState errorState : Option Place}
    {session : Session Place Data Routine}
    (placed : Placed chart initialState errorState session.fsm)
    (events : List (Event Data)) :
    ∃ (fuels : List Nat) (last : Session Place Data Routine),
      fuels.length = events.length ∧
      run (Session.handle chart accepts) session (fuels.zip events) =
        some last ∧
      Placed chart initialState errorState last.fsm := by
  induction events generalizing session with
  | nil => exact ⟨[], session, rfl, rfl, placed⟩
  | cons event events ih =>
      obtain ⟨fuel, result, ends⟩ :=
        exists_handleEvent_of_grounded up down accepts session.fsm event
          session.calls
      have kept : Placed chart initialState errorState result.2.1 :=
        (Handles.of_handleEvent ends).placed placed
      obtain ⟨fuels, last, same, runs, stays⟩ :=
        @ih { fsm := result.2.1, calls := result.2.2 } kept
      refine ⟨fuel :: fuels, last, by simp [same], ?_, stays⟩
      simpa [run_cons, Session.handle, ends] using runs

/-- When neither parents nor entry states run in circles, every sequence of
events is handled to its end, and the machine is never left in a group. -/
theorem exists_run_of_grounded
    (up : Grounded fun place => (chart place).parentState)
    (down : Grounded fun place => (chart place).entryState)
    (accepts : List (Call Place Data Routine) → Bool)
    (initialState errorState : Option Place) (events : List (Event Data)) :
    ∃ (fuels : List Nat) (last : Session Place Data Routine),
      fuels.length = events.length ∧
      run (Session.handle chart accepts)
        { fsm := stateMInit initialState errorState, calls := [] }
        (fuels.zip events) = some last ∧
      Placed chart initialState errorState last.fsm := by
  apply exists_run_of_placed up down
  exact ⟨rfl, fun place here => .inl here⟩

end Runs

section Gate

/-- A gate with the states shut and open in one group, which is entered shut. -/
def gate : Fin 3 → State (Fin 3) Unit Unit
  | 0 =>
      { parentState := none, entryState := some 1,
        transitions := [⟨0, (), none, some (), some 0⟩], data := (),
        entryAction := none, exitAction := none }
  | 1 =>
      { parentState := some 0, entryState := none,
        transitions := [⟨1, (), some (), some (), some 2⟩], data := (),
        entryAction := some (), exitAction := some () }
  | 2 =>
      { parentState := some 0, entryState := none,
        transitions := [⟨1, (), none, none, some 2⟩], data := (),
        entryAction := some (), exitAction := some () }

/-- Opened, opened again and reset through the group. -/
theorem balanced_gate : ∃ session,
    Session.Reached gate (fun _ => true) (some 1) none session ∧
      session.fsm.currentState = some 1 ∧
        timesLeft session.calls 2 = 1 ∧ timesEntered session.calls 2 = 1 ∧
          timesLeft session.calls 1 + 1 = timesEntered session.calls 1 + 1 := by
  have opened : ((run (Session.handle gate fun _ => true)
      { fsm := stateMInit (some 1) none, calls := [] }
      [(3, ⟨1, ()⟩), (3, ⟨1, ()⟩), (3, ⟨0, ()⟩)]).any fun session =>
        session.fsm.currentState = some 1 ∧ timesLeft session.calls 2 = 1 ∧
          timesEntered session.calls 2 = 1) = true := by
    decide +kernel
  obtain ⟨session, runs, checked⟩ := (Option.any_eq_true _ _).1 opened
  obtain ⟨shut, leftOpen, enteredOpen⟩ := of_decide_eq_true checked
  have reached : Session.Reached gate (fun _ => true) (some 1) none session :=
    Reachable.of_run rfl runs
  have defined : Defined gate := by
    unfold Defined
    decide
  have enters : (gate 1).entryAction ≠ none := by decide
  have leaves : (gate 1).exitAction ≠ none := by decide
  obtain ⟨same, -⟩ :=
    (reached.balanced enters leaves).2 defined (by decide)
  rw [shut] at same
  exact ⟨session, reached, shut, leftOpen, enteredOpen, same⟩

theorem exists_run_gate : ∃ (fuels : List Nat)
    (last : Session (Fin 3) Unit Unit), fuels.length = 2 ∧
    run (Session.handle gate fun _ => false)
      { fsm := stateMInit (some 1) none, calls := [] }
      (fuels.zip [⟨1, ()⟩, ⟨0, ()⟩]) = some last ∧
    Placed gate (some 1) none last.fsm := by
  have up : Grounded fun place => (gate place).parentState :=
    Subrelation.wf (r := fun inner outer : Fin 3 => inner < outer)
      (by unfold Subrelation; decide) wellFounded_lt
  have down : Grounded fun place => (gate place).entryState :=
    Subrelation.wf (r := fun inner outer : Fin 3 => outer < inner)
      (by unfold Subrelation; decide) wellFounded_gt
  exact exists_run_of_grounded up down (fun _ => false) (some 1) none
    [⟨1, ()⟩, ⟨0, ()⟩]

end Gate

end StateMachine

end MbedtlsKcp
