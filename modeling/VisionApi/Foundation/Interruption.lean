import Mathlib.Data.List.Basic

/-!
# Interrupted calls

A call performs a list of effects on a state.  A process that makes several calls
may be interrupted after any number of effects; what it has performed is a prefix.

`performAll` is a call that runs to its end and `performFirst` one that is cut short.
Two kinds of facts survive an interruption.  A view of the state that no effect
changes is the same after any prefix (`performFirst_view`), and an invariant that
every effect keeps holds after any prefix (`performFirst_invariant`).

For a sequence of calls, `performFirst_calls` says where the interruption falls: some
calls are complete, one is cut short, and the later ones have not begun.
-/

namespace VisionApi.Foundation

universe u v w

variable {State : Type u} {Effect : Type v} {Call : Type w}

/-- The state after all of some effects. -/
def performAll (perform : State → Effect → State) (state : State) (effects : List Effect) : State :=
  effects.foldl perform state

/-- The state after the first of some effects. -/
def performFirst (perform : State → Effect → State) (count : ℕ) (state : State)
    (effects : List Effect) : State :=
  performAll perform state (effects.take count)

variable {perform : State → Effect → State} {state : State}

@[simp]
theorem performAll_nil : performAll perform state [] = state :=
  rfl

@[simp]
theorem performAll_cons (effect : Effect) (effects : List Effect) :
    performAll perform state (effect :: effects) =
      performAll perform (perform state effect) effects :=
  rfl

/-- Effects in two lists are performed one list after the other. -/
theorem performAll_append (first second : List Effect) :
    performAll perform state (first ++ second) =
      performAll perform (performAll perform state first) second :=
  List.foldl_append

/-- A call that is interrupted after its last effect is complete. -/
theorem performFirst_of_length_le {count : ℕ} {effects : List Effect}
    (enough : effects.length ≤ count) :
    performFirst perform count state effects = performAll perform state effects := by
  rw [performFirst, List.take_of_length_le enough]

/-- What no effect changes is the same after all of them. -/
theorem performAll_view {View : Type*} (view : State → View) {effects : List Effect}
    (kept : ∀ effect ∈ effects, ∀ state, view (perform state effect) = view state) :
    view (performAll perform state effects) = view state := by
  induction effects generalizing state with
  | nil => rfl
  | cons effect effects ih =>
      rw [performAll_cons, ih fun other isLater => kept other (List.mem_cons_of_mem _ isLater)]
      exact kept effect List.mem_cons_self state

theorem performFirst_view {View : Type*} (view : State → View) {effects : List Effect}
    (kept : ∀ effect ∈ effects, ∀ state, view (perform state effect) = view state) (count : ℕ) :
    view (performFirst perform count state effects) = view state :=
  performAll_view view fun effect isFirst => kept effect (List.mem_of_mem_take isFirst)

/-- What every effect keeps holds after any number of them. -/
theorem performFirst_invariant {inv : State → Prop} {effects : List Effect}
    (kept : ∀ effect ∈ effects, ∀ state, inv state → inv (perform state effect)) (count : ℕ)
    (start : inv state) : inv (performFirst perform count state effects) := by
  induction effects generalizing state count with
  | nil => simpa [performFirst] using start
  | cons effect effects ih =>
      cases count with
      | zero => exact start
      | succ count =>
          exact ih (fun other isLater => kept other (List.mem_cons_of_mem _ isLater)) count
            (kept effect List.mem_cons_self state start)

/-- An interruption of two lists falls into the first or into the second one. -/
theorem performFirst_append (count : ℕ) (first second : List Effect) :
    performFirst perform count state (first ++ second) =
      performFirst perform (count - first.length) (performFirst perform count state first)
        second := by
  rw [performFirst, List.take_append, performAll_append]
  rfl

/-- The rule for a process that makes one call after another: a call that is `ready` keeps the
state `safe` wherever it is interrupted, and leaves the next one ready. -/
theorem performFirst_calls {effectsOf : Call → List Effect} (ready : List Call → State → Prop)
    (safe : State → Prop) (finished : ∀ state, ready [] state → safe state)
    (part : ∀ call rest state count, ready (call :: rest) state →
      safe (performFirst perform count state (effectsOf call)))
    (whole : ∀ call rest state, ready (call :: rest) state →
      ready rest (performAll perform state (effectsOf call)))
    {calls : List Call} (start : ready calls state) (count : ℕ) :
    safe (performFirst perform count state (calls.flatMap effectsOf)) := by
  induction calls generalizing state count with
  | nil =>
      rw [List.flatMap_nil, performFirst, List.take_nil]
      exact finished state start
  | cons call rest ih =>
      rw [List.flatMap_cons, performFirst_append]
      rcases Nat.le_total (effectsOf call).length count with enough | short
      · rw [performFirst_of_length_le enough]
        exact ih (whole call rest state start) _
      · rw [Nat.sub_eq_zero_of_le short, performFirst, List.take_zero]
        exact part call rest state count start

end VisionApi.Foundation
