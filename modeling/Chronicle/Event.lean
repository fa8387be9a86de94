import Chronicle.Codec.Wire

/-!
# Events

An event is held in three forms. A `SerializedEvent` is a payload in bytes with the name of its
kind and its metadata; a `RecordedEvent` is such an event at its place in a stream and in its
tenant's log; an `EventEnvelope` holds the payload itself and the id of its instance.

Reading a recorded event can fail for three reasons: the id of the instance, the payload, or a
payload of another kind than the record names.
-/

namespace Chronicle

/-- A type of events, each of which is of a named kind. -/
class EventKind (ε : Type) where
  kind : ε → String

/-- What is known of a stored event besides its payload. -/
structure EventMetadata where
  aggregateType : TypeTag
  aggregateId : String
  tenant : TenantId
  eventId : EventId
  commandId : CommandId
  sequenceId : SequenceId
  principal : PrincipalId
  timestamp : Timestamp
  deriving DecidableEq

instance : Wire EventMetadata :=
  ⟨"eventloom_core::event::EventMetadata",
    Format.record
      (Fields.required "aggregate_type" (Wire.format (α := TypeTag)) <|
        Fields.required "aggregate_id" Format.string <|
        Fields.required "tenant_id" (Wire.format (α := TenantId)) <|
        Fields.required "event_id" (Wire.format (α := EventId)) <|
        Fields.required "command_id" (Wire.format (α := CommandId)) <|
        Fields.required "sequence_id" (Wire.format (α := SequenceId)) <|
        Fields.required "principal_id" (Wire.format (α := PrincipalId)) <|
        Fields.required "timestamp" Format.timestamp <| Fields.none)
      (fun m => (m.aggregateType, m.aggregateId, m.tenant, m.eventId, m.commandId, m.sequenceId,
        m.principal, m.timestamp, ()))
      (fun (type, id, tenant, event, command, sequence, principal, timestamp, _) =>
        ⟨type, id, tenant, event, command, sequence, principal, timestamp⟩)⟩

/-- An event ready to be stored. -/
structure SerializedEvent where
  kind : String
  data : Bytes
  metadata : EventMetadata
  deriving DecidableEq

/-- A stored event in short. -/
def SerializedEvent.toText (event : SerializedEvent) : String :=
  "SerializedEvent \x7b type: " ++ event.kind ++ ", size: " ++ toString event.data.length ++
    " bytes \x7d"

/-- A stored event at its place. -/
structure RecordedEvent where
  stream : StreamId
  version : Version
  position : GlobalPosition
  event : SerializedEvent
  deriving DecidableEq

/-- An event of one instance, with its payload. -/
structure EventEnvelope (ι ε : Type) where
  aggregateId : ι
  stream : StreamId
  tenant : TenantId
  eventId : EventId
  commandId : CommandId
  sequenceId : SequenceId
  principal : PrincipalId
  payload : ε
  timestamp : Timestamp
  version : Version
  deriving DecidableEq

/-- Why a recorded event cannot be read. -/
inductive TranslationError where
  | aggregateId (error : ParseIdError)
  | payload (error : CodecError)
  | shapeMismatch (stream : StreamId) (version : Version) (stored decoded : String)
  deriving DecidableEq, Repr

/-- The text reported where a recorded event cannot be read. -/
def TranslationError.message : TranslationError → String
  | .aggregateId error => error.message
  | .payload error => error.message
  | .shapeMismatch stream version stored decoded =>
    "event at " ++ stream.text ++ "@" ++ version.toText ++ " is stored as " ++ stored ++
      " but decodes as " ++ decoded

/-- The names of the causes of a failure, from outside in. -/
def TranslationError.label : TranslationError → String
  | .aggregateId _ => "AggregateId"
  | .payload error => "Payload." ++ error.label
  | .shapeMismatch .. => "ShapeMismatch"

namespace EventEnvelope

variable {ι ε : Type}

/-- The kind of the payload. -/
def kind [EventKind ε] (envelope : EventEnvelope ι ε) : String := EventKind.kind envelope.payload

/-- What is stored of an envelope besides its payload. -/
def metadata [InstanceId ι] (envelope : EventEnvelope ι ε) (tag : TypeTag) : EventMetadata where
  aggregateType := tag
  aggregateId := InstanceId.toText envelope.aggregateId
  tenant := envelope.tenant
  eventId := envelope.eventId
  commandId := envelope.commandId
  sequenceId := envelope.sequenceId
  principal := envelope.principal
  timestamp := envelope.timestamp

/-- An envelope in the form in which it is stored. -/
def serialize [InstanceId ι] [EventKind ε] [Wire ε] (envelope : EventEnvelope ι ε) (codec : Codec)
    (tag : TypeTag) : Except CodecError SerializedEvent :=
  (codec.encode envelope.payload).map fun data => ⟨envelope.kind, data, envelope.metadata tag⟩

/-- The envelope of a recorded event whose id and payload are known. -/
def ofParts (row : RecordedEvent) (aggregateId : ι) (payload : ε) : EventEnvelope ι ε where
  aggregateId := aggregateId
  stream := row.stream
  tenant := row.event.metadata.tenant
  eventId := row.event.metadata.eventId
  commandId := row.event.metadata.commandId
  sequenceId := row.event.metadata.sequenceId
  principal := row.event.metadata.principal
  payload := payload
  timestamp := row.event.metadata.timestamp
  version := row.version

/-- Reads a recorded event. The id comes first, then the payload, then its kind. -/
def ofRecorded [InstanceId ι] [EventKind ε] [Wire ε] (row : RecordedEvent) (codec : Codec) :
    Except TranslationError (EventEnvelope ι ε) := do
  let id ← (parseId row.event.metadata.aggregateId).mapError .aggregateId
  let payload ← (codec.decode row.event.data).mapError .payload
  if EventKind.kind payload = row.event.kind then
    return ofParts row id payload
  else
    throw (.shapeMismatch row.stream row.version row.event.kind (EventKind.kind payload))

end EventEnvelope

end Chronicle
