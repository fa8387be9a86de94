import Chronicle.Codec.Wire

/-!
# Commands

A command is addressed to one instance of an aggregate type. Commands that it causes share its
sequence, tenant, principal and source. A command is accepted or rejected; an accepted one may
or may not have changed anything.
-/

namespace Chronicle

/-- A command on its way to an instance. -/
structure CommandEnvelope (ι κ : Type) where
  aggregateId : ι
  tenant : TenantId
  commandId : CommandId
  parent : Option CommandId
  sequenceId : SequenceId
  principal : PrincipalId
  source : String
  payload : κ
  timestamp : Timestamp
  deriving DecidableEq

namespace CommandEnvelope

variable {ι κ ι' κ' : Type}

/-- The source of commands that name no other. -/
def defaultSource : String := "eventloom"

/-- A command that no other caused. -/
def new (aggregateId : ι) (payload : κ) (commandId : CommandId) (sequenceId : SequenceId)
    (timestamp : Timestamp) : CommandEnvelope ι κ where
  aggregateId := aggregateId
  tenant := .default
  commandId := commandId
  parent := none
  sequenceId := sequenceId
  principal := .system
  source := defaultSource
  payload := payload
  timestamp := timestamp

/-- A command that another one causes. -/
def caused (cause : CommandEnvelope ι κ) (aggregateId : ι') (payload : κ')
    (commandId : CommandId) (timestamp : Timestamp) : CommandEnvelope ι' κ' where
  aggregateId := aggregateId
  tenant := cause.tenant
  commandId := commandId
  parent := some cause.commandId
  sequenceId := cause.sequenceId
  principal := cause.principal
  source := cause.source
  payload := payload
  timestamp := timestamp

end CommandEnvelope

instance {ι κ : Type} [Wire ι] [Wire κ] : Wire (CommandEnvelope ι κ) :=
  ⟨"eventloom_core::command::CommandEnvelope<" ++ Wire.typeName ι ++ ", " ++ Wire.typeName κ ++ ">",
    Format.record
      (Fields.required "aggregate_id" (Wire.format (α := ι)) <|
        Fields.required "tenant_id" (Wire.format (α := TenantId)) <|
        Fields.required "command_id" (Wire.format (α := CommandId)) <|
        Fields.required "parent_command_id" (Wire.format (α := Option CommandId)) <|
        Fields.required "sequence_id" (Wire.format (α := SequenceId)) <|
        Fields.required "principal_id" (Wire.format (α := PrincipalId)) <|
        Fields.required "source" Format.string <|
        Fields.required "payload" (Wire.format (α := κ)) <|
        Fields.required "timestamp" Format.timestamp <| Fields.none)
      (fun c => (c.aggregateId, c.tenant, c.commandId, c.parent, c.sequenceId, c.principal,
        c.source, c.payload, c.timestamp, ()))
      (fun (id, tenant, command, parent, sequence, principal, source, payload, timestamp, _) =>
        ⟨id, tenant, command, parent, sequence, principal, source, payload, timestamp⟩)⟩

/-- The text reported for a rejected command. -/
def rejectionMessage (reason : String) : String := "command rejected: " ++ reason

/-- What became of a command. -/
structure CommandResult where
  accepted : Bool
  hasChanges : Bool
  reason : Option String
  version : Version
  deriving DecidableEq, Repr

namespace CommandResult

/-- The result of an accepted command. -/
def accept (hasChanges : Bool) (version : Version) : CommandResult :=
  ⟨true, hasChanges, none, version⟩

/-- The result of a rejected command. -/
def reject (reason : String) (version : Version) : CommandResult :=
  ⟨false, false, some reason, version⟩

/-- The same result at another version. -/
def atVersion (result : CommandResult) (version : Version) : CommandResult :=
  { result with version := version }

end CommandResult

instance : Wire CommandResult :=
  ⟨"eventloom_core::command::CommandExecutionResult",
    Format.record
      (Fields.required "accepted" Format.bool <|
        Fields.required "has_changes" Format.bool <|
        Fields.required "error" Format.string.option <|
        Fields.required "resulting_version" (Wire.format (α := Version)) <| Fields.none)
      (fun r => (r.accepted, r.hasChanges, r.reason, r.version, ()))
      (fun (accepted, hasChanges, reason, version, _) => ⟨accepted, hasChanges, reason, version⟩)⟩

end Chronicle
