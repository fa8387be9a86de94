import Chronicle.Request.Basic
import Chronicle.Sample.Carrier

/-!
# Kits

A `Kit` is an aggregate type with the documents that stand for its commands, events and states.
Commands have a form of their own; events and states have the one in which they are stored, but
for the maps of scripted aggregates, which no JSON object can hold: they are lists of triples.
-/

namespace Chronicle.Sample

/-- The document of a value in the form in which it is stored. -/
def storedJson {α : Type} [Wire α] (value : α) : Json :=
  ((Wire.format (α := α)).toJson value).getD .null

/-- The value of a document in the form in which it is stored. -/
def ofStoredJson? {α : Type} [Wire α] (r : Request) : Option α := (Wire.format (α := α)).ofJson r

/-! ## Commands -/

/-- A command to a sequence: the numbers to add, or the word that clears it. -/
def SequenceCommand.ofRequest? (r : Request) : Option SequenceCommand :=
  match r.member? "add" with
  | some values =>
    some (.add ((Request.asList values).filterMap fun v => (Request.asInt? v).map UInt32.ofInt))
  | none => if Request.asText? r = some "clear" then some .clear else none

/-- A command to an account: who opens it, an amount, or the word that closes it. -/
def AccountCommand.ofRequest? (r : Request) : Option AccountCommand :=
  match r.text? "open", r.word? "deposit", r.word? "withdraw" with
  | some owner, _, _ => some (.openFor owner)
  | _, some amount, _ => some (.deposit amount)
  | _, _, some amount => some (.withdraw amount)
  | _, _, _ => if Request.asText? r = some "close" then some .close else none

/-! ## Scripted aggregates -/

/-- The triples of a map. -/
def PairMap.triples (m : PairMap) : Json :=
  .array (m.entries.map fun ((a, b), c) =>
    .array [Json.int a.toNat, Json.int b.toNat, Json.int c.toNat])

/-- The map of some triples. -/
def PairMap.ofTriples (r : Request) : PairMap :=
  .ofList <| (Request.asList r).filterMap fun item =>
    match (Request.asList item).filterMap Request.asInt? with
    | [a, b, c] => some ((UInt32.ofInt a, UInt32.ofInt b), UInt32.ofInt c)
    | _ => none

/-- The map of some pairs, each of a key, which is a pair itself, and its value. -/
def PairMap.ofPairs (r : Request) : PairMap :=
  .ofTriples <| .array <| (Request.asList r).map fun item =>
    .array <| (Request.asList item).flatMap fun piece =>
      match piece with
      | .array key => key
      | value => [value]

/-- The document of an event. -/
def ScriptEvent.json : ScriptEvent → Json
  | .keyed pairs => Json.record [("Keyed", pairs.triples)]
  | event => (ScriptEvent.format.toJson event).getD .null

/-- The event of a document. -/
def ScriptEvent.ofRequest? (r : Request) : Option ScriptEvent :=
  match r.member? "Keyed" with
  | some pairs => some (.keyed (.ofTriples pairs))
  | none => ScriptEvent.format.ofJson r

/-- The document of a state. -/
def ScriptState.json (s : ScriptState) : Json :=
  Json.record [("total", Json.int s.total.toInt), ("notes", .array (s.notes.map Json.str)),
    ("keyed", s.keyed.triples)]

/-- The state of a document. -/
def ScriptState.ofRequest (r : Request) : ScriptState :=
  ⟨Int64.ofInt ((r.int? "total").getD 0), r.texts "notes", .ofTriples (r.part "keyed")⟩

/-- The step of a script: a reason to reject, or an event. -/
def ScriptStep.ofRequest? (r : Request) : Option ScriptStep :=
  match r.text? "reject" with
  | some reason => some (.reject reason)
  | none => (ScriptEvent.ofRequest? r).map .emit

/-! ## Kits -/

/-- An aggregate type with the documents of its parts. -/
structure Kit where
  A : AggregateType
  [carries : Carries Carrier A.Id A.Event]
  event? : Request → Option A.Event
  eventJson : A.Event → Json
  state? : Request → Option A.State
  stateJson : A.State → Json
  command? : Request → Option A.Command
  /-- A command for which the payload does not matter. -/
  someCommand : A.Command

attribute [instance] Kit.carries

namespace Kit

/-- The kit of sequences. -/
def sequence : Kit where
  A := sequenceType
  carries := inferInstanceAs (Carries Carrier UInt64 SequenceEvent)
  event? := ofStoredJson? (α := SequenceEvent)
  eventJson := storedJson (α := SequenceEvent)
  state? := ofStoredJson? (α := SequenceState)
  stateJson := storedJson (α := SequenceState)
  command? := SequenceCommand.ofRequest?
  someCommand := SequenceCommand.clear

/-- The kit of accounts. -/
def account : Kit where
  A := accountType
  carries := inferInstanceAs (Carries Carrier AccountId AccountEvent)
  event? := ofStoredJson? (α := AccountEvent)
  eventJson := storedJson (α := AccountEvent)
  state? := ofStoredJson? (α := AccountState)
  stateJson := storedJson (α := AccountState)
  command? := AccountCommand.ofRequest?
  someCommand := AccountCommand.close

variable [Wire ScriptState] [Wire ScriptEvent]

/-- The kit of a scripted type. -/
def scripted (name : String) (tag : UInt32) (mutator : Mutator ScriptState ScriptEvent) :
    Kit where
  A := scriptedType name ⟨tag⟩ mutator
  carries := inferInstanceAs (Carries Carrier String ScriptEvent)
  event? := ScriptEvent.ofRequest?
  eventJson := ScriptEvent.json
  state? r := some (ScriptState.ofRequest r)
  stateJson := ScriptState.json
  command? r := some ((Request.asList r).filterMap ScriptStep.ofRequest?)
  someCommand := ([] : List ScriptStep)

/-- The kit that a word names. -/
def named : String → Kit
  | "seq" => sequence
  | "account" => account
  | "same_name" => scripted "probe" 8 ScriptState.fullMutator
  | "same_tag" => scripted "probe-two" 7 ScriptState.fullMutator
  | "unbound" => scripted "unbound" 99 ScriptState.bareMutator
  | "nameless" => scripted "" 0 ScriptState.fullMutator
  | _ => scripted "probe" 7 ScriptState.fullMutator

end Kit

end Chronicle.Sample
