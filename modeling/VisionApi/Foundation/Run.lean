/-!
# Runs of step functions

A system is a step function from states and events to the next state; `none`
says that the event is not enabled.  A `Run` is a finite sequence of enabled
steps, each of which satisfies a side condition on the state before, the event
and the state after.  Invariants are proved once per step and lifted to every
run here.

The side condition is what a theorem assumes about the steps of a run, for example
that no step meets a certain defect.  A run without assumptions is `Reachable`.
`EachStep` states a property of every step of a given list of events, and
`eachStep_iff` derives an equivalence of two such properties, over whole runs, from
an equivalence of a single step in the states that an invariant describes: with it
the exact condition of a property over runs is the condition of its steps.
-/

namespace VisionApi.Foundation

universe u v

variable {State : Type u} {Event : Type v}

/-- Finite runs from `start` all of whose steps are `allowed`. -/
inductive Run (step : State → Event → Option State)
    (allowed : State → Event → State → Prop) (start : State) : State → Prop where
  | refl : Run step allowed start start
  | tail {before after : State} (event : Event) (run : Run step allowed start before)
      (enabled : step before event = some after) (admissible : allowed before event after) :
      Run step allowed start after

/-- States reached by some run, with no condition on its steps. -/
abbrev Reachable (step : State → Event → Option State) (start : State) : State → Prop :=
  Run step (fun _ _ _ => True) start

namespace Run

variable {step : State → Event → Option State} {allowed : State → Event → State → Prop}
  {start finish : State}

/-- A run reaches its last state. -/
theorem reachable (run : Run step allowed start finish) : Reachable step start finish := by
  induction run with
  | refl => exact .refl
  | tail event _ enabled _ ih => exact .tail event ih enabled trivial

/-- Runs are put together. -/
theorem trans {middle : State} (run : Run step allowed start middle)
    (rest : Run step allowed middle finish) : Run step allowed start finish := by
  induction rest with
  | refl => exact run
  | tail event _ enabled admissible ih => exact .tail event ih enabled admissible

/-- What holds at the start and is preserved by every allowed step holds at the end. -/
theorem invariant {inv : State → Prop} (run : Run step allowed start finish)
    (atStart : inv start)
    (preserved : ∀ before event after, inv before → allowed before event after →
      step before event = some after → inv after) : inv finish := by
  induction run with
  | refl => exact atStart
  | tail event _ enabled admissible ih => exact preserved _ _ _ ih admissible enabled

/-- The invariant rule when each step may also use an invariant of every reachable state. -/
theorem invariant_of_reachable {known inv : State → Prop} (run : Run step allowed start finish)
    (everywhere : ∀ state, Reachable step start state → known state) (atStart : inv start)
    (preserved : ∀ before event after, known before → known after → inv before →
      allowed before event after → step before event = some after → inv after) :
    inv finish := by
  induction run with
  | refl => exact atStart
  | tail event run enabled admissible ih =>
      have knownBefore := everywhere _ run.reachable
      have knownAfter := everywhere _ (run.reachable.tail event enabled trivial)
      exact preserved _ _ _ knownBefore knownAfter ih admissible enabled

end Run

/-- Execute a list of events, failing at the first one that is not enabled. -/
def exec (step : State → Event → Option State) : State → List Event → Option State
  | state, [] => some state
  | state, event :: events => (step state event).bind fun next => exec step next events

/-- A list of enabled events leads to a reachable state. -/
theorem reachable_exec {step : State → Event → Option State} {events : List Event}
    {start state finish : State} (reached : Reachable step start state)
    (executed : exec step state events = some finish) : Reachable step start finish := by
  induction events generalizing state with
  | nil =>
      simp only [exec, Option.some.injEq] at executed
      subst finish
      exact reached
  | cons event events ih =>
      simp only [exec, Option.bind_eq_some_iff] at executed
      rcases executed with ⟨next, enabled, rest⟩
      exact ih (reached.tail event enabled trivial) rest

/-- Every step of a list of events satisfies a condition; events that are not enabled end it. -/
def EachStep (step : State → Event → Option State) (condition : State → Event → State → Prop) :
    State → List Event → Prop
  | _, [] => True
  | state, event :: events =>
      ∀ next, step state event = some next →
        condition state event next ∧ EachStep step condition next events

/-- Two conditions that agree wherever an invariant holds hold of the same lists of events, when
the second one preserves the invariant. -/
theorem eachStep_iff {step : State → Event → Option State}
    {property condition : State → Event → State → Prop} (inv : State → Prop)
    (wellFormed : Event → Prop)
    (agree : ∀ before event after, inv before → wellFormed event →
      step before event = some after →
      (property before event after ↔ condition before event after))
    (preserved : ∀ before event after, inv before → wellFormed event →
      step before event = some after → condition before event after → inv after)
    {start : State} (atStart : inv start) {events : List Event}
    (areWellFormed : ∀ event ∈ events, wellFormed event) :
    EachStep step property start events ↔ EachStep step condition start events := by
  induction events generalizing start with
  | nil => exact Iff.rfl
  | cons event events ih =>
      have isWellFormed := areWellFormed event List.mem_cons_self
      have rest : ∀ other ∈ events, wellFormed other :=
        fun other isLater => areWellFormed other (List.mem_cons_of_mem _ isLater)
      constructor
      · intro each next enabled
        have here := (agree _ _ _ atStart isWellFormed enabled).mp (each next enabled).1
        have atNext := preserved _ _ _ atStart isWellFormed enabled here
        exact ⟨here, (ih atNext rest).mp (each next enabled).2⟩
      · intro each next enabled
        have here := (each next enabled).1
        have atNext := preserved _ _ _ atStart isWellFormed enabled here
        exact ⟨(agree _ _ _ atStart isWellFormed enabled).mpr here,
          (ih atNext rest).mpr (each next enabled).2⟩

end VisionApi.Foundation
