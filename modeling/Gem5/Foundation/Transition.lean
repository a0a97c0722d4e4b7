import Mathlib.Logic.Function.Basic
import Mathlib.Order.Defs.PartialOrder

/-!
# Labelled transition systems and inductive invariants

A system is a set of initial states and a labelled step relation.  Safety
statements are about `TransitionSystem.Reachable` states; they are derived from
`TransitionSystem.Invariant`, which asks only for the initial states and for one
step.  `TransitionSystem.restrict` keeps the steps that meet a condition, so that
"in every run whose steps all meet the condition" is reachability in the
restricted system.
-/

namespace Foundation

universe u v

/-- States, the initial ones, and labelled steps between them. -/
structure TransitionSystem (State : Type u) (Event : Type v) where
  Initial : State → Prop
  Step : State → Event → State → Prop

namespace TransitionSystem

variable {State : Type u} {Event : Type v} {system : TransitionSystem State Event}

/-- Zero or more steps from a selected state, with the events taken in order. -/
inductive Steps (system : TransitionSystem State Event) : State → List Event → State → Prop where
  | refl {state} : Steps system state [] state
  | step {state events current event next}
      (prior : Steps system state events current)
      (transition : system.Step current event next) :
      Steps system state (events ++ [event]) next

/-- Two runs that meet compose. -/
theorem Steps.trans {first middle last : State} {before after : List Event}
    (prior : system.Steps first before middle) (suffix : system.Steps middle after last) :
    system.Steps first (before ++ after) last := by
  induction suffix with
  | refl => simpa using prior
  | step _ transition ih => simpa [List.append_assoc] using Steps.step ih transition

variable {state next : State} {event : Event}

/-- A single step is a run. -/
theorem Steps.single (transition : system.Step state event next) :
    system.Steps state [event] next :=
  Steps.step Steps.refl transition

/-- A state at the end of some run from an initial state. -/
def Reachable (system : TransitionSystem State Event) (state : State) : Prop :=
  ∃ initial events, system.Initial initial ∧ system.Steps initial events state

/-- Initial states are reachable. -/
theorem Reachable.of_initial (initial : system.Initial state) : system.Reachable state :=
  ⟨state, [], initial, Steps.refl⟩

variable {events : List Event}

/-- A run from a reachable state stays reachable. -/
theorem Reachable.steps (reachable : system.Reachable state)
    (suffix : system.Steps state events next) : system.Reachable next := by
  obtain ⟨initial, before, isInitial, prior⟩ := reachable
  exact ⟨initial, before ++ events, isInitial, prior.trans suffix⟩

/-- A step from a reachable state stays reachable. -/
theorem Reachable.step (reachable : system.Reachable state)
    (transition : system.Step state event next) : system.Reachable next :=
  reachable.steps (Steps.single transition)

/-- A property of the initial states that every step preserves. -/
structure Invariant (system : TransitionSystem State Event) (Inv : State → Prop) : Prop where
  initial : ∀ {state}, system.Initial state → Inv state
  preserved : ∀ {state event next}, Inv state → system.Step state event next → Inv next

/-- A property every step preserves holds at the end of a run from a state where it holds. -/
theorem Steps.preserves {Inv : State → Prop}
    (preserved : ∀ {state event next}, Inv state → system.Step state event next → Inv next)
    {state next : State} {events : List Event} (holds : Inv state)
    (steps : system.Steps state events next) : Inv next := by
  induction steps with
  | refl => exact holds
  | step _ transition ih => exact preserved ih transition

/-- An invariant holds in every reachable state. -/
theorem Invariant.of_reachable {Inv : State → Prop} (invariant : system.Invariant Inv)
    (reachable : system.Reachable state) : Inv state := by
  obtain ⟨initial, events, isInitial, steps⟩ := reachable
  exact steps.preserves invariant.preserved (invariant.initial isInitial)

/-- The system that takes only the steps meeting `guard`. -/
def restrict (system : TransitionSystem State Event) (guard : State → Event → Prop) :
    TransitionSystem State Event where
  Initial := system.Initial
  Step state event next := guard state event ∧ system.Step state event next

variable {guard : State → Event → Prop}

/-- A restricted step is a step that its guard allows. -/
@[simp] theorem restrict_step : (system.restrict guard).Step state event next ↔
      guard state event ∧ system.Step state event next :=
  Iff.rfl

/-- Two restrictions are one by both guards. -/
theorem restrict_restrict {second : State → Event → Prop} :
    (system.restrict guard).restrict second =
    system.restrict fun state event => second state event ∧ guard state event := by
  simp only [restrict, and_assoc]

/-- A run of one system is a run of another that takes the same steps. -/
theorem Steps.mono {other : TransitionSystem State Event}
    (includes : ∀ {state event next}, system.Step state event next → other.Step state event next)
    (steps : system.Steps state events next) : other.Steps state events next := by
  induction steps with
  | refl => exact Steps.refl
  | step _ transition ih => exact Steps.step ih (includes transition)

/-- A condition that every step meets restricts nothing. -/
theorem Reachable.restrict (meets : ∀ state event, guard state event)
    (reachable : system.Reachable state) : (system.restrict guard).Reachable state := by
  obtain ⟨initial, events, isInitial, steps⟩ := reachable
  refine ⟨initial, events, isInitial, steps.mono fun transition => ?_⟩
  exact restrict_step.mpr ⟨meets _ _, transition⟩

/-- A restricted run is a run. -/
theorem Reachable.of_restrict (reachable : (system.restrict guard).Reachable state) :
    system.Reachable state := by
  obtain ⟨initial, events, isInitial, steps⟩ := reachable
  exact ⟨initial, events, isInitial, steps.mono fun transition => (restrict_step.mp transition).2⟩

/-- The system of a fallible step function: a step that fails has no successor. -/
def ofExcept {ε : Type*} (Initial : State → Prop) (step : State → Event → Except ε State) :
    TransitionSystem State Event where
  Initial := Initial
  Step state event next := step state event = .ok next

variable {ε : Type*} {Initial : State → Prop} {step : State → Event → Except ε State}

/-- A step of a function is a success of it. -/
@[simp] theorem ofExcept_step :
    (ofExcept Initial step).Step state event next ↔ step state event = .ok next :=
  Iff.rfl

/-- Folding the step function over a list of events is a run. -/
theorem Steps.of_foldlM (run : events.foldlM step state = .ok next) :
    (ofExcept Initial step).Steps state events next := by
  induction events generalizing state with
  | nil =>
    obtain rfl : state = next := Except.ok.inj run
    exact Steps.refl
  | cons event rest ih =>
    cases first : step state event with
    | error fault => simp [first, bind, Except.bind] at run
    | ok middle =>
      have tail : rest.foldlM step middle = .ok next := by
        simpa [first, bind, Except.bind] using run
      exact (Steps.single (ofExcept_step.mpr first)).trans (ih tail)

/-- A run from an initial state to a state with a property. -/
theorem exists_reachable {first : State} {P : State → Prop} (events : List Event)
    (initial : Initial first)
    (evaluated : ∃ state, events.foldlM step first = .ok state ∧ P state) :
    ∃ state, (ofExcept Initial step).Reachable state ∧ P state := by
  obtain ⟨state, run, holds⟩ := evaluated
  exact ⟨state, ⟨first, events, initial, .of_foldlM run⟩, holds⟩

/-- Take only the steps that pass a check. -/
def checkedStep {ε : Type*} (check : State → Event → Bool) (fault : ε)
    (step : State → Event → Except ε State) (state : State) (event : Event) : Except ε State :=
  if check state event then step state event else .error fault

/-- Folding the checked steps is a run that meets every condition the check implies. -/
theorem Steps.of_checked_foldlM {check : State → Event → Bool} {fault : ε}
    (meets : ∀ state event, check state event = true → guard state event)
    (run : events.foldlM (checkedStep check fault step) state = .ok next) :
    ((ofExcept Initial step).restrict guard).Steps state events next := by
  have steps : (ofExcept Initial (checkedStep check fault step)).Steps state events next :=
    .of_foldlM run
  refine steps.mono fun {state event next} transition => ?_
  simp only [ofExcept_step, checkedStep] at transition
  split at transition
  · next passes => exact ⟨meets state event passes, transition⟩
  · simp at transition

/-- A run of steps that meet a condition, to a state with a property. -/
theorem exists_reachable_restrict [∀ state event, Decidable (guard state event)] {first : State}
    {P : State → Prop} (fault : ε) (events : List Event) (initial : Initial first)
    (evaluated : ∃ state, events.foldlM
      (checkedStep (fun state event => decide (guard state event)) fault step) first = .ok state ∧
        P state) :
    ∃ state, ((ofExcept Initial step).restrict guard).Reachable state ∧ P state := by
  obtain ⟨state, run, holds⟩ := evaluated
  exact ⟨state, ⟨first, events, initial, .of_checked_foldlM (fun _ _ => of_decide_eq_true) run⟩,
    holds⟩

/-- The runs of several components side by side: each event is a step of one component. -/
def interleave {ι : Type*} [DecidableEq ι] (system : TransitionSystem State Event) :
    TransitionSystem (ι → State) (ι × Event) where
  Initial state := ∀ i, system.Initial (state i)
  Step state event next := ∃ after, system.Step (state event.1) event.2 after ∧
    next = Function.update state event.1 after

/-- The events of one component. -/
def eventsOf {ι : Type*} [DecidableEq ι] (i : ι) (events : List (ι × Event)) : List Event :=
  (events.filter fun event => event.1 = i).map Prod.snd

/-- A run of the whole is a run of each component. -/
theorem Steps.component {ι : Type*} [DecidableEq ι] {first last : ι → State}
    {events : List (ι × Event)} (steps : (interleave system).Steps first events last) (i : ι) :
    system.Steps (first i) (eventsOf i events) (last i) := by
  induction steps with
  | refl => exact Steps.refl
  | @step events current event next _ transition ih =>
    obtain ⟨after, taken, rfl⟩ := transition
    have split : eventsOf i (events ++ [event]) = eventsOf i events ++ eventsOf i [event] := by
      simp [eventsOf]
    rw [split]
    by_cases same : event.1 = i
    · subst same
      simpa [eventsOf] using ih.step taken
    · simpa [eventsOf, same, Function.update_of_ne (Ne.symm same)] using ih

/-- A step that also adds to a history what it has done. -/
def recordedStep {ε Entry : Type*} (step : State → Event → Except ε State)
    (record : State → Event → State → List Entry) (state : State × List Entry) (event : Event) :
    Except ε (State × List Entry) :=
  match step state.1 event with
  | .ok next => .ok (next, state.2 ++ record state.1 event next)
  | .error fault => .error fault

/-- A recorded step is a step with its record appended. -/
theorem recordedStep_eq_ok {Entry : Type*} {record : State → Event → State → List Entry}
    {state next : State × List Entry} : recordedStep step record state event = .ok next ↔
      step state.1 event = .ok next.1 ∧ next.2 = state.2 ++ record state.1 event next.1 := by
  obtain ⟨after, history⟩ := next
  unfold recordedStep
  split
  · next found =>
    simp only [Except.ok.injEq, Prod.mk.injEq, found]
    constructor
    · rintro ⟨rfl, rfl⟩
      exact ⟨rfl, rfl⟩
    · rintro ⟨rfl, same⟩
      exact ⟨rfl, same.symm⟩
  · next found => simp [found]

/-- Every run has a history. -/
theorem Reachable.recorded {Entry : Type*} (record : State → Event → State → List Entry)
    (reachable : (ofExcept Initial step).Reachable state) :
    ∃ history, (ofExcept (fun state => Initial state.1 ∧ state.2 = [])
      (recordedStep step record)).Reachable (state, history) := by
  obtain ⟨first, events, initial, steps⟩ := reachable
  induction steps with
  | refl => exact ⟨[], .of_initial ⟨initial, rfl⟩⟩
  | @step _ current event next _ transition ih =>
    obtain ⟨history, before⟩ := ih
    refine ⟨history ++ record current event next, @Reachable.step _ _ _ _ _ event before ?_⟩
    exact recordedStep_eq_ok.mpr ⟨transition, rfl⟩

end TransitionSystem

/-- A relation whose edges strictly increase a rank has no cycle. -/
theorem not_transGen_self_of_rank {α β : Type*} [Preorder β] {edge : α → α → Prop}
    (rank : α → β) (increases : ∀ {source target}, edge source target → rank source < rank target)
    (node : α) : ¬ Relation.TransGen edge node node := by
  intro cycle
  have longer : ∀ {target}, Relation.TransGen edge node target → rank node < rank target := by
    intro target path
    induction path with
    | single first => exact increases first
    | tail _ last ih => exact lt_trans ih (increases last)
  exact lt_irrefl _ (longer cycle)

end Foundation
