import Chronicle.AggregateType

/-!
# Instances of aggregates

An `Aggregate` is brought up to date from a snapshot and the events behind it, and then takes
commands. From the moment it is ready, `expected` is the version its stream is expected to have
when its new events are appended; the events applied since are `uncommitted`.

An operation that fails leaves the instance as it was. A rejected command takes the new events
and the version back, but not the state.
-/

namespace Chronicle

/-- One instance of an aggregate type. -/
structure Aggregate (A : AggregateType) where
  id : A.Id
  tenant : TenantId
  status : Status
  mutator : Mutator A.State A.Event
  expected : Version
  current : Version
  uncommitted : List (EventEnvelope A.Id A.Event)

/-- How the handling of a command ends. -/
inductive Verdict where
  | accepted
  | rejected (reason : String)
  | abandoned (error : AggregateError)
  deriving DecidableEq, Repr

namespace Aggregate

variable {A : AggregateType}

/-- An instance that knows none of its events. -/
def hydrating (tenant : TenantId) (id : A.Id) (mutator : Mutator A.State A.Event) :
    Aggregate A where
  id := id
  tenant := tenant
  status := .hydrating
  mutator := mutator
  expected := .notCreated
  current := .notCreated
  uncommitted := []

/-- The stream of an instance. -/
def stream (a : Aggregate A) : StreamId := A.stream a.id

/-- The state of an instance. -/
def state (a : Aggregate A) : A.State := a.mutator.current

/-- Whether events have been applied that are not committed. -/
def hasChanges (a : Aggregate A) : Bool := !a.uncommitted.isEmpty

/-- Whether an instance has a status, or the error that it has not. -/
def ensure (a : Aggregate A) (status : Status) : Except AggregateError Unit :=
  if a.status = status then .ok () else .error (.notReady a.stream a.status)

/-! ## Bringing an instance up to date -/

/-- Takes the state of a snapshot. -/
def restore (a : Aggregate A) (state : A.State) (version : Version) :
    Except AggregateError (Aggregate A) := do
  a.ensure .hydrating
  return { a with mutator := a.mutator.seed state, current := version }

/-- Moves the state by a committed event, which must be newer than those before it. -/
def replay (a : Aggregate A) (envelope : EventEnvelope A.Id A.Event) :
    Checked (Except AggregateError (Aggregate A)) :=
  match a.ensure .hydrating with
  | .error error => .ok (.error error)
  | .ok () =>
    if envelope.version ≤ a.current then
      .ok (.error (.outOfOrder a.stream a.current envelope.version))
    else do
      match ← a.mutator.apply envelope.payload with
      | .error error => return .error (.unhandled error)
      | .ok mutator => return .ok { a with mutator := mutator, current := envelope.version }

/-- Moves the state by committed events, in their order. -/
def replayAll (a : Aggregate A) :
    List (EventEnvelope A.Id A.Event) → Checked (Except AggregateError (Aggregate A))
  | [] => .ok (.ok a)
  | envelope :: envelopes => do
    match ← a.replay envelope with
    | .error error => return .error error
    | .ok next => next.replayAll envelopes

/-- Lets an instance take commands and fixes the version its stream is expected to have. -/
def markReady (a : Aggregate A) : Aggregate A :=
  { a with expected := a.current, status := .ready }

/-! ## Taking commands -/

/-- The envelope of an event that a command applies. -/
def stamp (a : Aggregate A) (command : CommandEnvelope A.Id A.Command) (event : A.Event)
    (eventId : EventId) (version : Version) : EventEnvelope A.Id A.Event where
  aggregateId := a.id
  stream := a.stream
  tenant := a.tenant
  eventId := eventId
  commandId := command.commandId
  sequenceId := command.sequenceId
  principal := command.principal
  payload := event
  timestamp := command.timestamp
  version := version

/-- Applies a new event. -/
def apply (a : Aggregate A) (command : CommandEnvelope A.Id A.Command) (event : A.Event)
    (eventId : EventId) : Checked (Except AggregateError (Aggregate A)) :=
  match a.ensure .ready with
  | .error error => .ok (.error error)
  | .ok () => do
    let version ← a.current.next
    match ← a.mutator.apply event with
    | .error error => return .error (.unhandled error)
    | .ok mutator =>
      return .ok { a with
        mutator := mutator
        uncommitted := a.uncommitted ++ [a.stamp command event eventId version]
        current := version }

/-- Applies new events one after the other. -/
def applyAll (command : CommandEnvelope A.Id A.Command) :
    List A.Event → Aggregate A → IdSupply →
      Checked (Except AggregateError (Aggregate A) × IdSupply)
  | [], a, ids => .ok (.ok a, ids)
  | event :: events, a, ids => do
    let (eventId, ids) := ids.fresh
    match ← a.apply command event ⟨eventId⟩ with
    | .ok a => applyAll command events a ids
    | .error error => return (.error error, ids)

/-- Follows a decision to its end. -/
def follow (command : CommandEnvelope A.Id A.Command) :
    Decision A.State A.Event → Aggregate A → IdSupply →
      Checked (Verdict × Aggregate A × IdSupply)
  | .accept, a, ids => .ok (.accepted, a, ids)
  | .reject reason, a, ids => .ok (.rejected reason, a, ids)
  | .abandon error, a, ids => .ok (.abandoned error, a, ids)
  | .apply event next, a, ids =>
    let (eventId, ids) := ids.fresh
    match a.apply command event ⟨eventId⟩ with
    | .error fault => .error fault
    | .ok (.ok changed) => follow command (next (.ok changed.state)) changed ids
    | .ok (.error error) => follow command (next (.error error)) a ids

/-- Lets the handler of the type handle a command, whatever the status. -/
def handle (a : Aggregate A) (command : CommandEnvelope A.Id A.Command) (ids : IdSupply) :
    Checked (Verdict × Aggregate A × IdSupply) :=
  follow command (A.handle command a.state) a ids

/-- Takes the new events and the version back. -/
def rollBack (a : Aggregate A) : Aggregate A := { a with uncommitted := [], current := a.expected }

/-- Handles a command. -/
def execute (a : Aggregate A) (command : CommandEnvelope A.Id A.Command) (ids : IdSupply) :
    Checked (Except AggregateError CommandResult × Aggregate A × IdSupply) :=
  match a.ensure .ready with
  | .error error => .ok (.error error, a, ids)
  | .ok () => do
    let (verdict, a, ids) ← a.handle command ids
    match verdict with
    | .accepted => return (.ok (.accept a.hasChanges a.current), a, ids)
    | .rejected reason => return (.ok (.reject reason a.expected), a.rollBack, ids)
    | .abandoned error => return (.error error, a, ids)

/-- Hands the new events over. -/
def takeUncommitted (a : Aggregate A) : List (EventEnvelope A.Id A.Event) × Aggregate A :=
  (a.uncommitted, { a with uncommitted := [] })

end Aggregate

end Chronicle
