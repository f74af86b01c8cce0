import Mathlib

set_option autoImplicit false

/- Machines that take one event after another, and what holds along their runs. -/
namespace Machine

variable {State Event : Type} (step : State → Event → State)

def run (state : State) (events : List Event) : State := events.foldl step state

/-- Every event of the run meets the condition in the state it finds. -/
def Along (condition : State → Event → Prop) : State → List Event → Prop
  | _, [] => True
  | state, event :: rest => condition state event ∧ Along condition (step state event) rest

instance decidableAlong (condition : State → Event → Prop)
    [∀ state event, Decidable (condition state event)] :
    (state : State) → (events : List Event) → Decidable (Along step condition state events)
  | _, [] => inferInstanceAs (Decidable True)
  | state, event :: rest =>
      have := decidableAlong condition (step state event) rest
      inferInstanceAs (Decidable (condition state event ∧ Along step condition _ rest))

variable {step}

theorem run_append (state : State) (front back : List Event) :
    run step state (front ++ back) = run step (run step state front) back :=
  List.foldl_append

theorem along_append {condition : State → Event → Prop} {state : State} {front back : List Event} :
    Along step condition state (front ++ back) ↔
      Along step condition state front ∧ Along step condition (run step state front) back := by
  induction front generalizing state with
  | nil => simp [Along, run]
  | cons event rest ih =>
      simp only [List.cons_append, Along, ih, and_assoc]
      rfl

/-- What a step keeps under the condition, a run keeps along which the condition holds. -/
theorem Along.invariant {condition : State → Event → Prop} {Invariant : State → Prop}
    {state : State} {events : List Event} (along : Along step condition state events)
    (kept : ∀ state event, Invariant state → condition state event → Invariant (step state event))
    (start : Invariant state) : Invariant (run step state events) := by
  induction events generalizing state with
  | nil => exact start
  | cons event rest ih => exact ih along.2 (kept state event start along.1)

theorem run_invariant {Invariant : State → Prop}
    (kept : ∀ state event, Invariant state → Invariant (step state event)) {state : State}
    (events : List Event) (start : Invariant state) : Invariant (run step state events) := by
  induction events generalizing state with
  | nil => exact start
  | cons event rest ih => exact ih (kept state event start)

end Machine
