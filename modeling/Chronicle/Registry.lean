import Chronicle.AggregateType
import Chronicle.InPlace
import Chronicle.Table

/-!
# Erased envelopes and the registry

Where events of several aggregate types travel together, an envelope is erased: it shows a
header and hides the typed envelope in a carrier. A carrier is any type into which the typed
envelopes at hand can be put and taken out again.

The registry binds names and tags of aggregate types, each at most once, and reads a stored event
by the type its tag is bound to. It keeps two tables, one for each direction.
-/

namespace Chronicle

/-- Envelopes of one type can be put into a carrier and taken out again. -/
class Carries (κ ι ε : Type) where
  wrap : EventEnvelope ι ε → κ
  unwrap? : κ → Option (EventEnvelope ι ε)
  unwrap?_wrap : ∀ envelope, unwrap? (wrap envelope) = some envelope

/-- An envelope of some aggregate type. -/
structure AnyEnvelope (κ : Type) where
  tag : TypeTag
  name : String
  stream : StreamId
  tenant : TenantId
  version : Version
  /-- The place in the log, where the envelope was read from it. -/
  position : Option GlobalPosition
  kind : String
  eventId : EventId
  commandId : CommandId
  sequenceId : SequenceId
  content : κ

namespace AnyEnvelope

variable {κ : Type}

/-- Erases an envelope. -/
def erase (A : AggregateType) [Carries κ A.Id A.Event] (envelope : EventEnvelope A.Id A.Event)
    (position : Option GlobalPosition) : AnyEnvelope κ where
  tag := A.tag
  name := A.name
  stream := envelope.stream
  tenant := envelope.tenant
  version := envelope.version
  position := position
  kind := envelope.kind
  eventId := envelope.eventId
  commandId := envelope.commandId
  sequenceId := envelope.sequenceId
  content := Carries.wrap envelope

/-- The typed envelope, if it is of the wanted type. -/
def typed? (ι ε : Type) [Carries κ ι ε] (envelope : AnyEnvelope κ) :
    Option (EventEnvelope ι ε) :=
  Carries.unwrap? envelope.content

end AnyEnvelope

/-! ## The registry -/

/-- Why the registry has no answer. -/
inductive RegistryError where
  | missing (key : String)
  | duplicate (name : String) (tag : TypeTag)
  | malformed (stream : StreamId) (position : GlobalPosition) (error : TranslationError)
  deriving DecidableEq, Repr

/-- The text reported where the registry has no answer. -/
def RegistryError.message : RegistryError → String
  | .missing key => "no aggregate type is bound to " ++ key
  | .duplicate name tag =>
    "aggregate type " ++ name ++ " (" ++ tag.toText ++ ") is already registered"
  | .malformed stream position error =>
    "malformed event in " ++ stream.text ++ " at position " ++ position.toText ++ ": " ++
      error.message

/-- The names of the causes of a failure, from outside in. -/
def RegistryError.label : RegistryError → String
  | .missing _ => "MissingTypeBinding"
  | .duplicate .. => "DuplicateBinding"
  | .malformed _ _ error => "MalformedEvent." ++ error.label

/-- A registered aggregate type: its name and how its events are read. -/
structure Binding (κ : Type) where
  name : String
  decode : RecordedEvent → Codec → Except TranslationError (AnyEnvelope κ)

/-- The binding of an aggregate type. -/
def Binding.of {κ : Type} (A : AggregateType) [Carries κ A.Id A.Event] : Binding κ where
  name := A.name
  decode row codec :=
    (EventEnvelope.ofRecorded row codec).map fun envelope =>
      AnyEnvelope.erase A envelope (some row.position)

/-- The registered aggregate types, by their tags and by their names. -/
structure Registry (κ : Type) where
  byTag : Table TypeTag (Binding κ)
  byName : Table String TypeTag

namespace Registry

variable {κ : Type}

/-- The registry without types. -/
def empty : Registry κ := ⟨.empty, .empty⟩

/-- The bindings, in the order in which they were made. -/
def bindings (r : Registry κ) : List (Binding κ) := r.byTag.values

/-- The number of registered types. -/
def size (r : Registry κ) : Nat := r.bindings.length

/-- The tag that a name is bound to. -/
def byName? (r : Registry κ) (name : String) : Option TypeTag := r.byName.get? name

/-- The binding of a tag. -/
def byTag? (r : Registry κ) (tag : TypeTag) : Option (Binding κ) := r.byTag.get? tag

/-- A registry in which an aggregate type is bound. -/
def bound (r : Registry κ) (A : AggregateType) [Carries κ A.Id A.Event] : Registry κ :=
  ⟨r.byTag.set A.tag (.of A), r.byName.set A.name A.tag⟩

/-- Registers an aggregate type whose name and tag are both free. -/
def register (r : Registry κ) (A : AggregateType) [Carries κ A.Id A.Event] :
    Except RegistryError (Registry κ) :=
  if (r.byName? A.name).isSome || (r.byTag? A.tag).isSome then .error (.duplicate A.name A.tag)
  else .ok (r.bound A)

/-- The same in place: the tag is bound before the name. -/
def registerInPlace (A : AggregateType) [Carries κ A.Id A.Event] :
    InPlace (Registry κ) RegistryError Unit := do
  let r ← get
  if (r.byName? A.name).isSome || (r.byTag? A.tag).isSome then
    throw (.duplicate A.name A.tag)
  modify fun r => { r with byTag := r.byTag.set A.tag (.of A) }
  modify fun r => { r with byName := r.byName.set A.name A.tag }

/-- The tag of a name. -/
def tagOfName (r : Registry κ) (name : String) : Except RegistryError TypeTag :=
  match r.byName? name with
  | some tag => .ok tag
  | none => .error (.missing name)

/-- The tag of the type registered under the name of an aggregate type. -/
def tagOfType (r : Registry κ) (A : AggregateType) : Except RegistryError TypeTag :=
  r.tagOfName A.name

/-- The name of a tag. -/
def nameOfTag (r : Registry κ) (tag : TypeTag) : Except RegistryError String :=
  match r.byTag? tag with
  | some binding => .ok binding.name
  | none => .error (.missing tag.toText)

/-- Reads a stored event by the type that its tag is bound to. -/
def decode (r : Registry κ) (row : RecordedEvent) (codec : Codec) :
    Except RegistryError (AnyEnvelope κ) :=
  match r.byTag? row.event.metadata.aggregateType with
  | none => .error (.missing row.event.metadata.aggregateType.toText)
  | some binding => (binding.decode row codec).mapError (.malformed row.stream row.position)

end Registry

end Chronicle
