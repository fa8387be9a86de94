import Chronicle.Command
import Chronicle.Mutator

/-!
# Aggregate types

An `AggregateType` names a kind of aggregate and says what its instances are: their ids, states,
events and commands, the transitions that explain the events, and the handler of commands.

A handler is a `Decision`: step by step it applies an event and looks at the state that this
leads to, until it accepts, rejects or gives up. Nothing else can change an instance.

What a handler decides by is the command, the state that it was handed, and the outcome of each
event that it applies. An instance could also tell it its versions, its status and the envelopes of
its new events; handlers that ask for these are left out. So whatever is said of all aggregate types
is said of those whose handlers decide by commands and states alone, as both sample types do. An
envelope carries a fresh identity, by which no two runs are alike: a handler that decides by it
does not handle the same command alike either.
-/

namespace Chronicle

/-- Whether an instance is still being brought up to date or may take commands. -/
inductive Status where
  | hydrating
  | ready
  deriving DecidableEq, Repr

/-- The name of a status. -/
def Status.toText : Status → String
  | .hydrating => "Hydrating"
  | .ready => "Ready"

/-- What is wrong with an aggregate type. -/
inductive BindingFlaw where
  | emptyName
  | noTransitions
  deriving DecidableEq, Repr

/-- The text reported for a flaw. -/
def BindingFlaw.message : BindingFlaw → String
  | .emptyName => "aggregate type name is empty"
  | .noTransitions => "mutator registers no transitions"

/-- Why an operation on an instance fails. -/
inductive AggregateError where
  | notReady (stream : StreamId) (status : Status)
  | unhandled (error : UnhandledKind)
  | outOfOrder (stream : StreamId) (current found : Version)
  | invalidBinding (aggregateType : String) (flaw : BindingFlaw)
  deriving DecidableEq, Repr

/-- The text reported where an operation on an instance fails. -/
def AggregateError.message : AggregateError → String
  | .notReady stream status => "aggregate " ++ stream.text ++ " is " ++ status.toText
  | .unhandled error => error.message
  | .outOfOrder stream current found =>
    "aggregate " ++ stream.text ++ " at " ++ current.toText ++ " cannot replay version " ++
      found.toText
  | .invalidBinding aggregateType flaw =>
    "invalid type binding for aggregate " ++ aggregateType ++ ": " ++ flaw.message

/-- The names of the causes of a failure, from outside in. -/
def AggregateError.label : AggregateError → String
  | .notReady .. => "NotReady"
  | .unhandled _ => "Mutator.UnhandledEventKind"
  | .outOfOrder .. => "OutOfOrder"
  | .invalidBinding .. => "InvalidAggregateTypeBinding"

/-- What the handler of a command does next. -/
inductive Decision (σ ε : Type) where
  /-- The command is done. -/
  | accept
  /-- The command is refused. -/
  | reject (reason : String)
  /-- The command fails. -/
  | abandon (error : AggregateError)
  /-- An event is applied; the handler goes on with the state that follows, or with the reason
  why the event could not be applied. -/
  | apply (event : ε) (next : Except AggregateError σ → Decision σ ε)

namespace Decision

variable {σ ε : Type}

/-- Applies an event and goes on; an event that cannot be applied fails the command. -/
def emit (event : ε) (next : σ → Decision σ ε) : Decision σ ε :=
  .apply event fun
    | .ok state => next state
    | .error error => .abandon error

/-- Applies an event and is done. -/
def emitOnly (event : ε) : Decision σ ε := emit event fun _ => .accept

/-- Applies events one after the other and is done. -/
def emitAll : List ε → Decision σ ε
  | [] => .accept
  | event :: events => emit event fun _ => emitAll events

end Decision

/-- A kind of aggregate. -/
structure AggregateType where
  /-- The name, with which the streams of all instances start. -/
  name : String
  /-- The mark on stored events and snapshots. -/
  tag : TypeTag
  Id : Type
  State : Type
  Event : Type
  Command : Type
  [instanceId : InstanceId Id]
  [stateWire : Wire State]
  [eventWire : Wire Event]
  [eventKind : EventKind Event]
  /-- The state of a new instance and the transitions of its events. -/
  mutator : Mutator State Event
  /-- The handler of commands, which decides by the command and by states alone. -/
  handle : CommandEnvelope Id Command → State → Decision State Event

attribute [instance] AggregateType.instanceId AggregateType.stateWire AggregateType.eventWire
  AggregateType.eventKind

namespace AggregateType

/-- The stream of an instance. -/
def stream (A : AggregateType) (id : A.Id) : StreamId :=
  .forAggregate A.name (InstanceId.toText id)

/-- The mutator of a type that has a name and at least one transition. -/
def boundMutator (A : AggregateType) : Except AggregateError (Mutator A.State A.Event) :=
  if A.name.isEmpty then .error (.invalidBinding A.name .emptyName)
  else if A.mutator.isEmpty then .error (.invalidBinding A.name .noTransitions)
  else .ok A.mutator

end AggregateType

end Chronicle
