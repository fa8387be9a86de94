import Chronicle.Request.Values
import Chronicle.Sample.Kit
import Chronicle.Snapshot.Vault

/-!
# Stored events and commands in requests

How requests spell payloads, the rows of the log, snapshots and commands. A payload is given as
hexadecimal digits, as text, or as the event or the state that it encodes.
-/

namespace Chronicle.Request

open Sample

/-- The bytes that hexadecimal digits spell. -/
def unhex (digits : String) : Bytes := (Uuid.hexBytes? digits.toList).getD []

/-- The bytes of a value, if there is one and it can be encoded. -/
def encoded {α : Type} [Wire α] (codec : Codec) (value : Option α) : Bytes :=
  ((value.bind fun v => (codec.encode v).toOption)).getD []

variable [Wire ScriptState] [Wire ScriptEvent]

/-- The kit of the aggregate type asked for. -/
def kit (r : Request) : Kit := .named (r.textOr "agg" "")

/-- The payload that a request is. -/
def payload (r : Request) : Bytes :=
  match r.text? "hex", r.text? "utf8" with
  | some digits, _ => unhex digits
  | _, some text => Bytes.ofText text
  | _, _ =>
    match r.member? "event" with
    | some event => encoded r.codec (r.kit.event? event)
    | none => encoded r.codec ((r.member? "state").bind r.kit.state?)

/-- The event that a request is, without its place. -/
def serialized (r : Request) : SerializedEvent where
  kind := r.textOr "type" "ItemAdded.v1"
  data := payload (r.part "data")
  metadata :=
    { aggregateType := r.tag "tag" 1
      aggregateId := r.textOr "aggregate_id" "1"
      tenant := r.tenant
      eventId := ⟨r.uuid "event_id" 1⟩
      commandId := ⟨r.uuid "command_id" 2⟩
      sequenceId := ⟨r.uuid "sequence_id" 3⟩
      principal := ⟨r.textOr "principal" "system"⟩
      timestamp := r.time "time" }

/-- The row of the log that a request is. -/
def recorded (r : Request) : RecordedEvent where
  stream := r.stream
  version := r.version "version" 1
  position := ⟨r.wordOr "position" 1⟩
  event := r.serialized

/-- The row that is part of a request. -/
def row (r : Request) : RecordedEvent := recorded (r.part "row")

/-- The snapshot that a request is. -/
def snapshot (r : Request) : StoredSnapshot where
  stream := r.stream
  version := r.version "version" 1
  tag := r.tag "tag" 1
  data := payload (r.part "data")
  takenAt := r.time "taken_at"

/-- A command with the parts that a request gives in place of its own. -/
def adjust {ι κ : Type} (r : Request) (c : CommandEnvelope ι κ) : CommandEnvelope ι κ :=
  { c with
    tenant := ((r.text? "tenant").map TenantId.mk).getD c.tenant
    principal := ((r.text? "principal").map PrincipalId.mk).getD c.principal
    source := (r.text? "source").getD c.source
    sequenceId := ((r.nat? "sequence").map fun n => SequenceId.mk (.ofNat n)).getD c.sequenceId }

/-- The command that a request is, with fresh identities where it gives none. -/
def command {ι κ : Type} (r : Request) (id : ι) (tenant : TenantId) (payload : κ)
    (ids : IdSupply) : CommandEnvelope ι κ × IdSupply :=
  let (commandId, ids) := ids.fresh
  let (sequenceId, ids) := ids.fresh
  let base := CommandEnvelope.new id payload ⟨commandId⟩ ⟨sequenceId⟩ (r.time "time")
  (adjust r { base with tenant := tenant }, ids)

end Chronicle.Request
