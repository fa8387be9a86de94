import Chronicle.AggregateType

/-!
# Sequences of numbers

A sequence holds numbers in the order in which they were added, and the sum of all numbers ever
added. Clearing it takes the numbers out and keeps the sum; an empty sequence is not cleared.
-/

namespace Chronicle.Sample

/-- The numbers of a sequence and the sum of all that it ever held. -/
structure SequenceState where
  items : List UInt32
  lifetimeTotal : UInt64
  deriving DecidableEq, Repr

/-- What happens to a sequence. -/
inductive SequenceEvent where
  | itemAdded (value : UInt32)
  | cleared
  deriving DecidableEq, Repr

/-- What a sequence is told to do. -/
inductive SequenceCommand where
  | add (values : List UInt32)
  | clear
  deriving DecidableEq, Repr

instance : EventKind SequenceEvent where
  kind
    | .itemAdded _ => "ItemAdded.v1"
    | .cleared => "Cleared.v1"

instance : Wire SequenceState :=
  ⟨"eventloom_testing::fixtures::SequenceState",
    Format.record
      (Fields.required "items" Format.uint32.list <|
        Fields.required "lifetime_total" Format.uint64 <| Fields.none)
      (fun s => (s.items, s.lifetimeTotal, ()))
      (fun (items, lifetimeTotal, _) => ⟨items, lifetimeTotal⟩)⟩

instance : Wire SequenceEvent :=
  ⟨"eventloom_testing::fixtures::SequenceEvent",
    Format.union
      (Variants.holding "ItemAdded" Format.uint32 <| Variants.plain "Cleared" <| Variants.none)
      (fun
        | .itemAdded value => .inl value
        | .cleared => .inr (.inl ()))
      (fun
        | .inl value => .itemAdded value
        | .inr (.inl _) => .cleared)⟩

namespace SequenceState

/-- A sequence without numbers. -/
def empty : SequenceState := ⟨[], 0⟩

/-- Adds the number of an event. -/
def onItemAdded : Transition SequenceState SequenceEvent
  | .itemAdded value, state => do
    let total ← checkedAdd state.lifetimeTotal value.toUInt64
    return ⟨state.items ++ [value], total⟩
  | .cleared, state => .ok state

/-- Takes the numbers out. -/
def onCleared : Transition SequenceState SequenceEvent
  | _, state => .ok { state with items := [] }

/-- The transitions of a sequence. -/
def mutator : Mutator SequenceState SequenceEvent :=
  ((Mutator.new empty).register "ItemAdded.v1" onItemAdded).register "Cleared.v1" onCleared

end SequenceState

/-- Adds each number, and clears only what is not empty. -/
def SequenceCommand.handle (command : CommandEnvelope UInt64 SequenceCommand)
    (state : SequenceState) : Decision SequenceState SequenceEvent :=
  match command.payload with
  | .add values => .emitAll (values.map .itemAdded)
  | .clear => if state.items.isEmpty then .accept else .emitOnly .cleared

/-- The type of sequences. -/
@[reducible]
def sequenceType : AggregateType where
  name := "seq"
  tag := ⟨1⟩
  Id := UInt64
  State := SequenceState
  Event := SequenceEvent
  Command := SequenceCommand
  mutator := SequenceState.mutator
  handle := SequenceCommand.handle

end Chronicle.Sample
