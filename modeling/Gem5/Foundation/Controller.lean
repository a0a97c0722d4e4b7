import Gem5.Foundation.FailStop

/-!
# Table-driven controllers

A controller is given by a table of transitions.  Each one names the states and the
events it serves, the actions it performs and the state it leaves behind.  An event
for which the table has no entry stops the simulation.  Actions may fail; they act on
a context that holds the state.
-/

namespace Foundation

/-- One entry of the table; the state stays when no next one is given. -/
structure Rule (State Event Action : Type) where
  states : List State
  events : List Event
  next : Option State
  actions : List Action

/-- A table with the meaning of its actions. -/
structure Controller (State Event Action Context : Type) where
  table : List (Rule State Event Action)
  getState : Context → State
  setState : Context → State → Context
  perform : Action → Context → Checked Context

section

variable {State Event Action Context : Type} [DecidableEq State] [DecidableEq Event]

/-- The entry that serves an event in a state. -/
def Rule.find (table : List (Rule State Event Action)) (state : State) (event : Event) :
    Option (Rule State Event Action) :=
  table.find? fun rule => decide (state ∈ rule.states) && decide (event ∈ rule.events)

/-- The actions of the entry that serves an event in a state. -/
def Rule.actionsOf (table : List (Rule State Event Action)) (state : State) (event : Event) :
    Option (List Action) :=
  (Rule.find table state event).map Rule.actions

namespace Controller

variable (controller : Controller State Event Action Context)

/-- Whether the controller has a transition. -/
def defines (state : State) (event : Event) : Bool :=
  (Rule.find controller.table state event).isSome

/-- Take the transition of an event. -/
def trigger (event : Event) (context : Context) : Checked Context :=
  match Rule.find controller.table (controller.getState context) event with
  | none => panicWith "Invalid transition"
  | some rule => do
    let after ← rule.actions.foldlM (fun context action => controller.perform action context)
      context
    return controller.setState after (rule.next.getD (controller.getState context))

variable {controller} {event : Event} {context next : Context}

/-- A transition succeeds exactly when the table has it and its actions succeed. -/
theorem trigger_eq_ok : controller.trigger event context = .ok next ↔
    ∃ rule after, Rule.find controller.table (controller.getState context) event = some rule ∧
      rule.actions.foldlM (fun context action => controller.perform action context) context
        = .ok after ∧
      controller.setState after (rule.next.getD (controller.getState context)) = next := by
  unfold trigger
  split
  · next missing => simp [missing]
  · next rule found => simp [found]

/-- The transition that the table gives for a known state. -/
theorem trigger_of_find {state : State} {rule : Rule State Event Action}
    (current : controller.getState context = state)
    (found : Rule.find controller.table state event = some rule) :
    controller.trigger event context = do
      let after ←
        rule.actions.foldlM (fun context action => controller.perform action context) context
      return controller.setState after (rule.next.getD state) := by
  subst current
  simp only [trigger, found]

/-- The transition that the table gives, up to the state it leaves behind. -/
theorem trigger_of_actions {actions : List Action}
    (found : Rule.actionsOf controller.table (controller.getState context) event = some actions) :
    ∃ state, controller.trigger event context = do
      let after ← actions.foldlM (fun context action => controller.perform action context) context
      return controller.setState after state := by
  obtain ⟨rule, listed, rfl⟩ := Option.map_eq_some_iff.mp found
  exact ⟨_, trigger_of_find rfl listed⟩

/-- An event without a transition stops. -/
theorem trigger_of_undefined
    (missing : controller.defines (controller.getState context) event = false) :
    controller.trigger event context = panicWith "Invalid transition" := by
  have none : Rule.find controller.table (controller.getState context) event = none := by
    simpa [defines] using missing
  simp only [trigger, none]

end Controller

end

end Foundation
