import Chronicle.Report.Basic
import Chronicle.Sample.Carrier
import Chronicle.Sample.Kit
import Chronicle.Snapshot.Vault

/-!
# Events in reports

Rows of the log, typed and erased envelopes, and snapshots. Rows and erased envelopes have a
short form too, which tells where the event stands and of what kind it is.
-/

namespace Chronicle.Report

open Sample

/-- A row of the log, with all that is stored of it. -/
def fullRow (row : RecordedEvent) : Json :=
  let m := row.event.metadata
  Json.record [("stream", .str row.stream.text), ("version", version row.version),
    ("position", position row.position), ("type", .str row.event.kind),
    ("data", hex row.event.data), ("tag", tag m.aggregateType),
    ("aggregate_id", .str m.aggregateId), ("tenant", .str m.tenant.text),
    ("event_id", uuid m.eventId.uuid), ("command_id", uuid m.commandId.uuid),
    ("sequence_id", uuid m.sequenceId.uuid), ("principal", .str m.principal.text),
    ("timestamp", .str m.timestamp.toText)]

/-- A row of the log. -/
def row (full : Bool) (row : RecordedEvent) : Json :=
  if full then fullRow row
  else arr [position row.position, .str row.stream.text, version row.version,
    .str row.event.kind]

/-- Rows of the log. -/
def rows (full : Bool) (list : List RecordedEvent) : Json := arr (list.map (row full))

/-- An envelope whose payload has a document. -/
def envelope {ι ε : Type} [InstanceId ι] [EventKind ε] (payload : ε → Json)
    (e : EventEnvelope ι ε) : Json :=
  Json.record [("id", .str (InstanceId.toText e.aggregateId)), ("stream", .str e.stream.text),
    ("tenant", .str e.tenant.text), ("version", version e.version), ("type", .str e.kind),
    ("payload", payload e.payload), ("event_id", uuid e.eventId.uuid),
    ("command_id", uuid e.commandId.uuid), ("sequence_id", uuid e.sequenceId.uuid),
    ("principal", .str e.principal.text), ("timestamp", .str e.timestamp.toText)]

/-- Envelopes of one aggregate type. -/
def envelopes (k : Kit) (list : List (EventEnvelope k.A.Id k.A.Event)) : Json :=
  arr (list.map (envelope k.eventJson))

/-- The payload in a carrier. -/
def carried : Carrier → Json
  | .sequence e => storedJson e.payload
  | .account e => storedJson e.payload
  | .scripted e => e.payload.json

/-- An erased envelope, with all that it shows. -/
def fullErased (e : AnyEnvelope Carrier) : Json :=
  Json.record [("agg", .str e.name), ("tag", tag e.tag), ("stream", .str e.stream.text),
    ("tenant", .str e.tenant.text), ("version", version e.version),
    ("position", opt position e.position), ("type", .str e.kind),
    ("payload", carried e.content), ("event_id", uuid e.eventId.uuid),
    ("command_id", uuid e.commandId.uuid), ("sequence_id", uuid e.sequenceId.uuid)]

/-- An erased envelope. -/
def erased (full : Bool) (e : AnyEnvelope Carrier) : Json :=
  if full then fullErased e
  else arr [.str e.stream.text, version e.version, .str e.kind, opt position e.position]

/-- Erased envelopes. -/
def allErased (full : Bool) (list : List (AnyEnvelope Carrier)) : Json :=
  arr (list.map (erased full))

/-- A command, with documents for its id and its payload. -/
def command {ι κ : Type} (id : ι → Json) (payload : κ → Json) (c : CommandEnvelope ι κ) : Json :=
  Json.record [("id", id c.aggregateId), ("payload", payload c.payload),
    ("tenant", .str c.tenant.text), ("principal", .str c.principal.text),
    ("source", .str c.source), ("timestamp", .str c.timestamp.toText),
    ("command_id", uuid c.commandId.uuid), ("parent", opt (fun p => uuid p.uuid) c.parent),
    ("sequence", uuid c.sequenceId.uuid)]

/-- A snapshot. -/
def snapshot (s : StoredSnapshot) : Json :=
  Json.record [("stream", .str s.stream.text), ("version", version s.version), ("tag", tag s.tag),
    ("data", hex s.data), ("taken_at", .str s.takenAt.toText)]

end Chronicle.Report
