import Chronicle.Engine.Hydration

/-!
# Sending commands

A command is sent in five phases: the snapshot of its instance is read; the rest of the stream is
read and the command is handled; the new events are appended; the new state is saved as a
snapshot; the events are published. Other commands may run between the phases. The append is the
one point at which a command takes effect: before it nothing is stored, and nothing behind it
takes the events back.
-/

namespace Chronicle.Engine

variable {S κ π : Type} [EventStore S]

/-- What a handled command wants to append. -/
structure Proposal (A : AggregateType) where
  tenant : TenantId
  stream : StreamId
  /-- The version at which the command saw the stream. -/
  expected : Version
  envelopes : List (EventEnvelope A.Id A.Event)
  /-- The state with the new events. -/
  state : A.State
  result : CommandResult

/-- A handled command: done, or with events to append. -/
inductive Handled (A : AggregateType) where
  | idle (result : CommandResult)
  | proposed (proposal : Proposal A)

/-- What an instance wants to append after a command. -/
def propose {A : AggregateType} (a : Aggregate A) (result : CommandResult) : Proposal A where
  tenant := a.tenant
  stream := a.stream
  expected := a.expected
  envelopes := a.uncommitted
  state := a.state
  result := result

/-- Reads the rest of the stream and handles the command. -/
def decide (settings : Settings) {A : AggregateType}
    (command : CommandEnvelope A.Id A.Command) (a : Aggregate A) (w : World S κ π) :
    Checked (Except EngineError (Handled A) × World S κ π) := do
  match ← replayStream settings a w.store with
  | .error error => return (.error error, w)
  | .ok a =>
    let (outcome, a, ids) ← a.execute command w.ids
    let w := { w with ids := ids }
    match outcome with
    | .error error => return (.error (.aggregate error), w)
    | .ok result =>
      if result.hasChanges then return (.ok (.proposed (propose a result)), w)
      else return (.ok (.idle result), w.countIdle result)

/-- Appends the proposed events and tells the new version of the stream. -/
def append (settings : Settings) {A : AggregateType} (p : Proposal A) (w : World S κ π) :
    Checked (Except EngineError Version × World S κ π) := do
  let (outcome, store) ← EventStore.appendEnvelopes w.store settings.codec A.tag p.tenant p.stream
    p.expected p.envelopes
  let w := { w with store := store }
  match outcome with
  | .error error => return (.error (.store error), w.countAppendFailure error)
  | .ok version => return (.ok version, w.countAppend p.envelopes.length)

/-- Saves the new state, where snapshots are used. -/
def saveSnapshot (settings : Settings) {A : AggregateType} (p : Proposal A) (version : Version)
    (w : World S κ π) : World S κ π :=
  if settings.usesSnapshots then
    let (outcome, vault) := w.vault.write A settings.snapshotPolicy settings.codec w.clock p.tenant
      p.stream version (some p.state)
    { w with vault := vault }.countSave outcome
  else w

/-- Publishes appended events. All are noted before the first is published; if the publication
fails, none is waited for. -/
def publish (A : AggregateType) [Carries κ A.Id A.Event] [Projection κ π]
    (envelopes : List (EventEnvelope A.Id A.Event)) (w : World S κ π) :
    Checked (Except EngineError Unit × World S κ π) := do
  let batch := envelopes.map fun envelope => AnyEnvelope.erase A envelope none
  let (_, bus, tracker) ← Bus.performAll (batch.map .mark) w.bus w.tracker
  let (outcome, bus, tracker) ← bus.publish tracker batch
  match outcome with
  | .ok () => return (.ok (), { w with bus := bus, tracker := tracker })
  | .error error => do
    let (_, bus, tracker) ← Bus.performAll (batch.map .release) bus tracker
    return (.error (.bus error), { w with bus := bus, tracker := tracker })

/-- Stores and announces what a command proposes. -/
def commit (settings : Settings) {A : AggregateType} [Carries κ A.Id A.Event] [Projection κ π]
    (p : Proposal A) (w : World S κ π) : Checked (Except EngineError CommandResult × World S κ π) :=
  do
    let (outcome, w) ← append settings p w
    match outcome with
    | .error error => return (.error error, w)
    | .ok version =>
      let (outcome, w) ← publish A p.envelopes (saveSnapshot settings p version w)
      return (outcome.map fun () => p.result.atVersion version, w)

/-- Sends a command to its instance. -/
def send (settings : Settings) (A : AggregateType) [Carries κ A.Id A.Event] [Projection κ π]
    (command : CommandEnvelope A.Id A.Command) (w : World S κ π) :
    Checked (Except EngineError CommandResult × World S κ π) :=
  if w.started then
    match restoreSnapshot settings A command.tenant command.aggregateId settings.usesSnapshots w
    with
    | (.error error, w) => .ok (.error error, w)
    | (.ok a, w) => do
      let (outcome, w) ← decide settings command a w
      match outcome with
      | .error error => return (.error error, w)
      | .ok (.idle result) => return (.ok result, w)
      | .ok (.proposed p) => commit settings p w
  else .ok (.error .notStarted, w)

/-! ## Waiting and retrying -/

/-- Waits until a sequence is done. Where nobody else works meanwhile, a sequence that is not done
when the wait begins is not done when its time is over. The wait comes with the outcome. -/
def awaitCompletion (timeout : Duration) (sequence : SequenceId) (w : World S κ π) :
    Except EngineError Unit × List Duration × World S κ π :=
  match w.tracker.enroll sequence with
  | (none, tracker) => (.ok (), [], { w with tracker := tracker })
  | (some waiter, tracker) =>
    match tracker.expire sequence waiter with
    | (true, tracker) =>
      (.error (.publicationTimeout ⟨sequence, timeout⟩), [timeout],
        { w with tracker := tracker }.countTimeout)
    | (false, tracker) => (.ok (), [timeout], { w with tracker := tracker })

/-- Sends a command and waits until the events it led to are handled. -/
def sendAndWait (settings : Settings) (A : AggregateType) [Carries κ A.Id A.Event]
    [Projection κ π] (command : CommandEnvelope A.Id A.Command) (timeout : Option Duration)
    (w : World S κ π) : Checked (Except EngineError CommandResult × List Duration × World S κ π) :=
  do
    let (outcome, w) ← send settings A command w
    match outcome with
    | .error error => return (.error error, [], w)
    | .ok result =>
      if result.hasChanges then
        let (waited, pauses, w) := awaitCompletion (timeout.getD settings.publicationTimeout)
          command.sequenceId w
        return (waited.map fun () => result, pauses, w)
      else return (.ok result, [], w)

/-- Sends a command, and again after each conflict, as often as the policy permits. -/
def sendWithRetry (settings : Settings) (A : AggregateType) [Carries κ A.Id A.Event]
    [Projection κ π] (command : CommandEnvelope A.Id A.Command) (policy : RetryPolicy Float)
    (draw : Float) (w : World S κ π) :
    Checked (Except EngineError CommandResult × List Duration × World S κ π) :=
  policy.retry draw EngineError.isRetryable (send settings A command) w

end Chronicle.Engine
