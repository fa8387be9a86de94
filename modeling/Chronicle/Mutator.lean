import Chronicle.Event

/-!
# State transitions

A `Mutator` holds a state and a table from kinds of events to transitions. Applying an event
moves the state by the transition of its kind; an event of a kind that is not in the table is an
error and moves nothing.
-/

namespace Chronicle

/-- How events of one kind change a state. -/
abbrev Transition (σ ε : Type) := ε → σ → Checked σ

/-- An event of a kind for which a state has no transition. -/
structure UnhandledKind where
  kind : String
  stateType : String
  deriving DecidableEq, Repr

/-- The text reported for an event without a transition. -/
def UnhandledKind.message (e : UnhandledKind) : String :=
  "no transition registered for " ++ e.kind ++ " on " ++ e.stateType

/-- A state and the transitions that move it. -/
structure Mutator (σ ε : Type) where
  transitions : List (String × Transition σ ε)
  initial : σ
  current : σ

namespace Mutator

variable {σ ε : Type}

/-- A mutator without transitions. -/
def new (initial : σ) : Mutator σ ε := ⟨[], initial, initial⟩

/-- The transition of a kind. -/
def find? (m : Mutator σ ε) (kind : String) : Option (Transition σ ε) := m.transitions.lookup kind

/-- Whether events of a kind have a transition. -/
def handles (m : Mutator σ ε) (kind : String) : Bool := (m.find? kind).isSome

/-- The number of kinds that have a transition. -/
def size (m : Mutator σ ε) : Nat := m.transitions.length

/-- Whether no kind has a transition. -/
def isEmpty (m : Mutator σ ε) : Bool := m.transitions.isEmpty

/-- Gives a kind a transition in place of the one it had. -/
def register (m : Mutator σ ε) (kind : String) (transition : Transition σ ε) : Mutator σ ε :=
  { m with transitions := (kind, transition) :: m.transitions.filter fun entry => entry.1 != kind }

/-- Moves the state by an event. -/
def apply [EventKind ε] [Wire σ] (m : Mutator σ ε) (event : ε) :
    Checked (Except UnhandledKind (Mutator σ ε)) :=
  match m.find? (EventKind.kind event) with
  | none => .ok (.error ⟨EventKind.kind event, Wire.typeName σ⟩)
  | some transition => (transition event m.current).map fun state => .ok { m with current := state }

/-- Puts another state in place of the current one. -/
def seed (m : Mutator σ ε) (state : σ) : Mutator σ ε := { m with current := state }

/-- Goes back to the initial state. -/
def reset (m : Mutator σ ε) : Mutator σ ε := m.seed m.initial

end Mutator

end Chronicle
