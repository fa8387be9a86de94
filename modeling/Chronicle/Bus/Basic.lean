import Chronicle.Completion.Tracker
import Chronicle.Projection

/-!
# The event bus

The bus hands published envelopes to the registered projections, in the order in which these
were registered, and then to everyone else. An envelope that a projection refuses ends the
publication: the projections before have it, those behind do not, and the rest of the batch is
not published.

A projection may be registered more than once; it then handles every event as often.
-/

namespace Chronicle

/-- Why a publication fails. -/
inductive BusError where
  | connection (reason : String)
  | publish (reason : String)
  | subscription (reason : String)
  | projection (name : String) (error : ProjectionError)
  | transport (reason : String)
  deriving DecidableEq, Repr

/-- The text reported where a publication fails. -/
def BusError.message : BusError → String
  | .connection reason => "Connection failed: " ++ reason
  | .publish reason => "Publish failed: " ++ reason
  | .subscription reason => "Subscription failed: " ++ reason
  | .projection name error => "Projection " ++ name ++ " failed: " ++ error.message
  | .transport reason => "Transport error: " ++ reason

/-- The name of a failure. -/
def BusError.label : BusError → String
  | .connection _ => "ConnectionFailed"
  | .publish _ => "PublishFailed"
  | .subscription _ => "SubscriptionFailed"
  | .projection .. => "Projection"
  | .transport _ => "TransportError"

/-- An event bus. -/
structure Bus (κ π : Type) where
  /-- All projections, registered or not. -/
  projections : List π
  /-- The places of the registered projections. -/
  registered : List Nat
  /-- All envelopes that were published. -/
  published : List (AnyEnvelope κ)
  /-- How many batches were published as a whole. -/
  batches : Nat
  refuses : Bool
  /-- Whether handled events are reported to the tracker. -/
  reports : Bool

namespace Bus

variable {κ π : Type}

/-- A bus on which nothing was published. -/
def new (projections : List π) (registered : List Nat) (reports : Bool) : Bus κ π :=
  ⟨projections, registered, [], 0, false, reports⟩

/-- Registers the projection at a place. -/
def register (bus : Bus κ π) (place : Nat) : Bus κ π :=
  { bus with registered := bus.registered ++ [place] }

/-- Notes that an envelope was handled by everyone. -/
def note (bus : Bus κ π) (envelope : AnyEnvelope κ) : Bus κ π :=
  { bus with published := bus.published ++ [envelope] }

/-- Reports that an envelope was handled, if this bus reports. -/
def report (bus : Bus κ π) (tracker : CompletionTracker) (envelope : AnyEnvelope κ) :
    CompletionTracker :=
  if bus.reports then tracker.complete envelope.sequenceId envelope.eventId else tracker

/-! ## The acts of a publication -/

/-- One act of a publication. Others may come in between any two of them. -/
inductive Act (κ : Type) where
  /-- An event is noted as published. -/
  | mark (envelope : AnyEnvelope κ)
  /-- The batch enters the bus, unless this refuses. -/
  | enter
  /-- An event is handed to the projection at a place. -/
  | hand (envelope : AnyEnvelope κ) (place : Nat)
  /-- An event is reported as handled. -/
  | report (envelope : AnyEnvelope κ)
  /-- An event is added to those that were published. -/
  | record (envelope : AnyEnvelope κ)
  /-- The batch is counted. -/
  | conclude
  /-- An event is noted as handled, since its publication has failed. -/
  | release (envelope : AnyEnvelope κ)

/-- What becomes of an envelope: it is handed to the registered projections, then reported and
added to those that were published. -/
def acts (bus : Bus κ π) (envelope : AnyEnvelope κ) : List (Act κ) :=
  bus.registered.map (.hand envelope ·) ++ [.report envelope, .record envelope]

/-- The publication of a batch, if no act of it fails. -/
def script (bus : Bus κ π) (batch : List (AnyEnvelope κ)) : List (Act κ) :=
  .enter :: (batch.flatMap bus.acts ++ [.conclude])

variable [Projection κ π]

/-- Does one act. -/
def Act.perform : Act κ → Bus κ π → CompletionTracker →
    Checked (Except BusError Unit × Bus κ π × CompletionTracker)
  | .mark envelope, bus, tracker =>
    .ok (.ok (), bus, tracker.start envelope.sequenceId envelope.eventId)
  | .enter, bus, tracker =>
    if bus.refuses then
      .ok (.error (.publish "in-memory bus refuses publication"), bus, tracker)
    else .ok (.ok (), bus, tracker)
  | .hand envelope place, bus, tracker =>
    match bus.projections[place]? with
    | none => .ok (.ok (), bus, tracker)
    | some projection => do
      match ← Projection.handle projection envelope with
      | .error error =>
        return (.error (.projection (Projection.name κ projection) error), bus, tracker)
      | .ok changed =>
        return (.ok (), { bus with projections := bus.projections.set place changed }, tracker)
  | .report envelope, bus, tracker => .ok (.ok (), bus, bus.report tracker envelope)
  | .record envelope, bus, tracker => .ok (.ok (), bus.note envelope, tracker)
  | .conclude, bus, tracker => .ok (.ok (), { bus with batches := bus.batches + 1 }, tracker)
  | .release envelope, bus, tracker =>
    .ok (.ok (), bus, tracker.complete envelope.sequenceId envelope.eventId)

/-- Does one act after the other, up to the first that fails. -/
def performAll : List (Act κ) → Bus κ π → CompletionTracker →
    Checked (Except BusError Unit × Bus κ π × CompletionTracker)
  | [], bus, tracker => .ok (.ok (), bus, tracker)
  | act :: acts, bus, tracker => do
    let (outcome, bus, tracker) ← act.perform bus tracker
    match outcome with
    | .error error => return (.error error, bus, tracker)
    | .ok () => performAll acts bus tracker

/-- Publishes a batch, unless the bus refuses. -/
def publish (bus : Bus κ π) (tracker : CompletionTracker) (batch : List (AnyEnvelope κ)) :
    Checked (Except BusError Unit × Bus κ π × CompletionTracker) :=
  performAll (bus.script batch) bus tracker

/-- Resets the projections at some places, one after the other, up to the first that fails; its
name and its error are told. -/
def reset : List Nat → List π → Except (String × ProjectionError) Unit × List π
  | [], projections => (.ok (), projections)
  | place :: places, projections =>
    match projections[place]? with
    | none => reset places projections
    | some projection =>
      match Projection.reset κ projection with
      | .error error => (.error (Projection.name κ projection, error), projections)
      | .ok changed => reset places (projections.set place changed)

end Bus

end Chronicle
