import Chronicle.Aggregate
import Chronicle.InPlace

/-!
# Calls of an instance

An instance is one value that is changed in place by whoever calls it. Each operation is told here
in the order of its steps; a `Call` is any of them, and comes with an answer and with the instance
that it leaves behind, whether it fails or not.
-/

namespace Chronicle.Aggregate

variable {A : AggregateType}

/-! ## Operations in place -/

/-- Goes on only where the instance has a status. -/
def requireInPlace (status : Status) : InPlace (Aggregate A) AggregateError Unit := do
  let a ← get
  if a.status ≠ status then
    throw (.notReady a.stream a.status)

/-- Moves the state by an event. While the transition has the state, the instance holds the initial
one. -/
def moveInPlace (event : A.Event) : InPlace (Aggregate A) AggregateError Unit := do
  let a ← get
  match a.mutator.find? (EventKind.kind event) with
  | none => throw (.unhandled ⟨EventKind.kind event, Wire.typeName A.State⟩)
  | some transition =>
    modify fun a => { a with mutator := a.mutator.reset }
    let state ← transition event a.state
    modify fun a => { a with mutator := a.mutator.seed state }

/-- Takes the state of a snapshot. -/
def restoreInPlace (state : A.State) (version : Version) :
    InPlace (Aggregate A) AggregateError Unit := do
  requireInPlace .hydrating
  modify fun a => { a with mutator := a.mutator.seed state }
  modify fun a => { a with current := version }

/-- Replays a committed event. -/
def replayInPlace (envelope : EventEnvelope A.Id A.Event) :
    InPlace (Aggregate A) AggregateError Unit := do
  requireInPlace .hydrating
  let a ← get
  if envelope.version ≤ a.current then
    throw (.outOfOrder a.stream a.current envelope.version)
  moveInPlace envelope.payload
  modify fun a => { a with current := envelope.version }

/-- Applies a new event: it moves the state before it is kept and before the version follows. -/
def applyInPlace (command : CommandEnvelope A.Id A.Command) (event : A.Event)
    (eventId : EventId) : InPlace (Aggregate A) AggregateError Unit := do
  requireInPlace .ready
  let a ← get
  let version ← a.current.next
  let envelope := a.stamp command event eventId version
  moveInPlace event
  modify fun a => { a with uncommitted := a.uncommitted ++ [envelope] }
  modify fun a => { a with current := version }

/-! ## Calls -/

/-- What an instance can be asked to do. -/
inductive Call (A : AggregateType) where
  | restore (state : A.State) (version : Version)
  | replay (envelope : EventEnvelope A.Id A.Event)
  | markReady
  | apply (command : CommandEnvelope A.Id A.Command) (event : A.Event)
  | execute (command : CommandEnvelope A.Id A.Command)
  | takeUncommitted

/-- What a call that does not fail is answered. -/
inductive Answer (A : AggregateType) where
  | done
  | handled (result : CommandResult)
  | taken (envelopes : List (EventEnvelope A.Id A.Event))

/-- A call that is answered without more ado. -/
def callInPlace (a : Aggregate A) (ids : IdSupply)
    (steps : InPlace (Aggregate A) AggregateError Unit) :
    Checked (Except AggregateError (Answer A) × Aggregate A × IdSupply) := do
  let (outcome, a) ← steps.perform a
  return (outcome.map fun _ => .done, a, ids)

/-- Makes a call; the answer comes with the instance that it leaves behind. -/
def call (a : Aggregate A) (ids : IdSupply) :
    Call A → Checked (Except AggregateError (Answer A) × Aggregate A × IdSupply)
  | .restore state version => a.callInPlace ids (restoreInPlace state version)
  | .replay envelope => a.callInPlace ids (replayInPlace envelope)
  | .markReady => .ok (.ok .done, a.markReady, ids)
  | .apply command event =>
    let (eventId, ids) := ids.fresh
    a.callInPlace ids (applyInPlace command event ⟨eventId⟩)
  | .execute command => do
    let (outcome, a, ids) ← a.execute command ids
    return (outcome.map .handled, a, ids)
  | .takeUncommitted =>
    let (envelopes, a) := a.takeUncommitted
    .ok (.ok (.taken envelopes), a, ids)

/-- Makes calls one after the other. -/
def callAll (a : Aggregate A) (ids : IdSupply) :
    List (Call A) → Checked (List (Except AggregateError (Answer A)) × Aggregate A × IdSupply)
  | [] => .ok ([], a, ids)
  | c :: calls => do
    let (answer, a, ids) ← a.call ids c
    let (answers, a, ids) ← a.callAll ids calls
    return (answer :: answers, a, ids)

end Chronicle.Aggregate
