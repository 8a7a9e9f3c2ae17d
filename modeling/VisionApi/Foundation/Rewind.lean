import Mathlib.Data.Nat.Notation

/-!
# Sources that can be rewound

A source hands out one output for each request and forgets where it stood when it is
rewound.  It answers like a cursor into the sequence of its outputs.

The source is what a program keeps: a state that each request moves on, absent until
the first request and after a rewinding.  The cursor is what its user sees: the number
of requests since the last rewinding.  `serve_eq_cursor` proves them equal for every
sequence of requests, by induction with the relation that the state is the one after
as many requests as the position says.
-/

namespace VisionApi.Foundation

universe u v

variable {State : Type u} {Output : Type v}

/-- Ask for the next output, or go back to the start. -/
inductive Request where
  | next
  | rewind
deriving DecidableEq

/-- The state in which a source begins, and what it does for the next output. -/
structure Source (State : Type u) (Output : Type v) where
  start : State
  next : State → Output × State

namespace Source

/-- The state after a number of outputs. -/
def after (source : Source State Output) : ℕ → State
  | 0 => source.start
  | count + 1 => (source.next (source.after count)).2

/-- What is handed out after a number of earlier outputs. -/
def output (source : Source State Output) (count : ℕ) : Output :=
  (source.next (source.after count)).1

/-- The answers to requests from a state, if the source has begun. -/
def serve (source : Source State Output) : Option State → List Request → List Output
  | _, [] => []
  | state, .next :: requests =>
      let (output, following) := source.next (state.getD source.start)
      output :: source.serve (some following) requests
  | _, .rewind :: requests => source.serve none requests

end Source

/-- The answers of a cursor into a sequence. -/
def cursor (outputs : ℕ → Output) : ℕ → List Request → List Output
  | _, [] => []
  | position, .next :: requests => outputs position :: cursor outputs (position + 1) requests
  | _, .rewind :: requests => cursor outputs 0 requests

/-- A source that stands at a position answers like the cursor there. -/
theorem Source.serve_after (source : Source State Output) (requests : List Request)
    {state : Option State} {position : ℕ}
    (stands : state.getD source.start = source.after position) :
    source.serve state requests = cursor source.output position requests := by
  induction requests generalizing state position with
  | nil => rfl
  | cons request requests ih =>
      cases request with
      | next =>
          have follows : (some (source.next (source.after position)).2).getD source.start =
              source.after (position + 1) := rfl
          simp only [Source.serve, cursor, stands, ih follows]
          rfl
      | rewind =>
          have begins : (none : Option State).getD source.start = source.after 0 := rfl
          simp only [Source.serve, cursor, ih begins]

/-- A source that has not begun answers like a cursor at the first output. -/
theorem Source.serve_eq_cursor (source : Source State Output) (requests : List Request) :
    source.serve none requests = cursor source.output 0 requests :=
  source.serve_after requests rfl

end VisionApi.Foundation
