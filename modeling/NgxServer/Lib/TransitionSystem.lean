import Mathlib.Logic.Relation
import Mathlib.Logic.Function.Basic

/-!
# Runs of a guarded transition system

A system is a partial step function: `step state action = none` when the
action is not enabled. A run may be restricted by a side condition on the
state before a step and the action taken, so one system serves several
families of runs.
-/

namespace TransitionSystem

set_option autoImplicit false

variable {State Action : Type*}

def Next (step : State → Action → Option State) (allowed : State → Action → Prop)
    (before after : State) : Prop :=
  ∃ action, allowed before action ∧ step before action = some after

def Steps (step : State → Action → Option State) (allowed : State → Action → Prop) :
    State → State → Prop :=
  Relation.ReflTransGen (Next step allowed)

def Reachable (initial : State → Prop) (step : State → Action → Option State)
    (allowed : State → Action → Prop) (state : State) : Prop :=
  ∃ start, initial start ∧ Steps step allowed start state

section Rules

variable {step : State → Action → Option State}
  {allowed wider : State → Action → Prop} {initial : State → Prop}

theorem steps_refl (state : State) : Steps step allowed state state :=
  Relation.ReflTransGen.refl

theorem steps_trans {first second third : State} (early : Steps step allowed first second)
    (late : Steps step allowed second third) : Steps step allowed first third :=
  Relation.ReflTransGen.trans early late

theorem steps_cons {first second third : State} {action : Action}
    (permitted : allowed first action) (taken : step first action = some second)
    (rest : Steps step allowed second third) : Steps step allowed first third :=
  Relation.ReflTransGen.head ⟨action, permitted, taken⟩ rest

theorem steps_single {first second : State} {action : Action}
    (permitted : allowed first action) (taken : step first action = some second) :
    Steps step allowed first second :=
  steps_cons permitted taken (steps_refl second)

theorem steps_mono (weaken : ∀ state action, allowed state action → wider state action)
    {first second : State} (run : Steps step allowed first second) :
    Steps step wider first second := by
  refine Relation.ReflTransGen.mono ?_ _ _ run
  rintro before after ⟨action, permitted, taken⟩
  exact ⟨action, weaken before action permitted, taken⟩

theorem reachable_start {state : State} (start : initial state) :
    Reachable initial step allowed state :=
  ⟨state, start, steps_refl state⟩

theorem reachable_steps {first second : State} (reached : Reachable initial step allowed first)
    (run : Steps step allowed first second) : Reachable initial step allowed second := by
  obtain ⟨start, begins, before⟩ := reached
  exact ⟨start, begins, steps_trans before run⟩

theorem reachable_mono (weaken : ∀ state action, allowed state action → wider state action)
    {state : State} (reached : Reachable initial step allowed state) :
    Reachable initial step wider state := by
  obtain ⟨start, begins, run⟩ := reached
  exact ⟨start, begins, steps_mono weaken run⟩

theorem steps_preserve {invariant : State → Prop}
    (preserved : ∀ before action after, invariant before → allowed before action →
      step before action = some after → invariant after)
    {first second : State} (run : Steps step allowed first second)
    (holds : invariant first) : invariant second := by
  induction run with
  | refl => exact holds
  | tail _ last ih =>
      obtain ⟨action, permitted, taken⟩ := last
      exact preserved _ action _ ih permitted taken

/-- An invariant that holds initially and that every allowed step keeps
holds in every reachable state. -/
theorem invariant_of_step (invariant : State → Prop)
    (starts : ∀ state, initial state → invariant state)
    (preserved : ∀ before action after, invariant before → allowed before action →
      step before action = some after → invariant after)
    {state : State} (reached : Reachable initial step allowed state) : invariant state := by
  obtain ⟨start, begins, run⟩ := reached
  exact steps_preserve preserved run (starts start begins)

/-- The same with what is known of every reachable state at hand. -/
theorem invariant_of_reachable (invariant : State → Prop)
    (starts : ∀ state, initial state → invariant state)
    (preserved : ∀ before action after, Reachable initial step allowed before →
      invariant before → allowed before action → step before action = some after →
        invariant after)
    {state : State} (reached : Reachable initial step allowed state) : invariant state := by
  have both : Reachable initial step allowed state ∧ invariant state := by
    apply invariant_of_step
      (fun state => Reachable initial step allowed state ∧ invariant state) ?_ ?_ reached
    · exact fun start begins => ⟨reachable_start begins, starts start begins⟩
    · rintro before action after ⟨earlier, holds⟩ permitted taken
      exact ⟨reachable_steps earlier (steps_single permitted taken),
        preserved before action after earlier holds permitted taken⟩
  exact both.2

/-- A relation between the two ends of a run, from what one step does. The
invariant is available at the left end of every step. -/
theorem steps_relate (invariant : State → Prop) (relation : State → State → Prop)
    (preserved : ∀ before action after, invariant before → allowed before action →
      step before action = some after → invariant after)
    (reflexive : ∀ state, relation state state)
    (extended : ∀ start before action after, relation start before → invariant before →
      allowed before action → step before action = some after → relation start after)
    {first second : State} (holds : invariant first)
    (run : Steps step allowed first second) : relation first second := by
  have both : invariant second ∧ relation first second := by
    induction run with
    | refl => exact ⟨holds, reflexive first⟩
    | tail _ last ih =>
        obtain ⟨action, permitted, taken⟩ := last
        exact ⟨preserved _ action _ ih.1 permitted taken,
          extended first _ action _ ih.2 ih.1 permitted taken⟩
  exact both.2

/-- As long as the goal is not reached, some allowed step shortens the way. -/
theorem exists_steps_to (measure : State → Nat) (invariant : State → Prop) {goal : State → Prop}
    (progress : ∀ state, invariant state → ¬ goal state → ∃ action next,
      allowed state action ∧ step state action = some next ∧ invariant next ∧
        measure next < measure state)
    {state : State} (holds : invariant state) :
    ∃ final, Steps step allowed state final ∧ goal final := by
  induction bound : measure state using Nat.strongRecOn generalizing state with
  | ind size ih =>
      by_cases reached : goal state
      · exact ⟨state, steps_refl state, reached⟩
      · obtain ⟨action, next, permitted, taken, kept, less⟩ := progress state holds reached
        obtain ⟨final, run, there⟩ := ih (measure next) (bound ▸ less) kept rfl
        exact ⟨final, steps_cons permitted taken run, there⟩

end Rules

/-- Executes a list of actions; `none` as soon as one is not allowed or not
enabled. -/
def exec (step : State → Action → Option State) (allowed : State → Action → Bool) :
    State → List Action → Option State
  | state, [] => some state
  | state, action :: rest =>
      if allowed state action then
        match step state action with
        | none => none
        | some next => exec step allowed next rest
      else none

theorem steps_of_exec {step : State → Action → Option State} {permitted : State → Action → Bool}
    {allowed : State → Action → Prop}
    (sound : ∀ state action, permitted state action = true → allowed state action)
    {actions : List Action} {first second : State}
    (executed : exec step permitted first actions = some second) :
    Steps step allowed first second := by
  induction actions generalizing first with
  | nil =>
      cases executed
      exact steps_refl _
  | cons action rest ih =>
      unfold exec at executed
      split at executed
      case isTrue here =>
        split at executed
        case h_1 => cases executed
        case h_2 next taken => exact steps_cons (sound _ _ here) taken (ih executed)
      case isFalse => cases executed

end TransitionSystem
