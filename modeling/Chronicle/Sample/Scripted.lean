import Chronicle.AggregateType

/-!
# Scripted aggregates

The commands of a scripted aggregate are scripts: lists of events to apply, in which a refusal
may stand. Its events cover what is hard to store: a map whose keys have no text, and a kind for
which there is no transition. Several types share all this and differ in name, tag and table of
transitions.
-/

namespace Chronicle.Sample

/-- A map from pairs of numbers to numbers, in the order of the keys. -/
structure PairMap where
  entries : List ((UInt32 × UInt32) × UInt32)
  deriving DecidableEq, Repr

namespace PairMap

/-- Whether a key comes before another. -/
def before (a b : UInt32 × UInt32) : Bool := a.1 < b.1 || (a.1 == b.1 && a.2 < b.2)

/-- Gives a key a value, in entries in the order of their keys. -/
def insertEntry (key : UInt32 × UInt32) (value : UInt32) :
    List ((UInt32 × UInt32) × UInt32) → List ((UInt32 × UInt32) × UInt32)
  | [] => [(key, value)]
  | entry :: rest =>
    if before key entry.1 then (key, value) :: entry :: rest
    else if entry.1 = key then (key, value) :: rest
    else entry :: insertEntry key value rest

/-- Gives a key a value. -/
def insert (m : PairMap) (key : UInt32 × UInt32) (value : UInt32) : PairMap :=
  ⟨insertEntry key value m.entries⟩

/-- The map that comes of giving keys values one after the other. -/
def ofList (entries : List ((UInt32 × UInt32) × UInt32)) : PairMap :=
  entries.foldl (fun m entry => m.insert entry.1 entry.2) ⟨[]⟩

/-- Gives all keys of another map their values there. -/
def insertAll (m other : PairMap) : PairMap :=
  other.entries.foldl (fun m entry => m.insert entry.1 entry.2) m

end PairMap

instance : Wire PairMap :=
  ⟨"alloc::collections::btree::map::BTreeMap<(u32, u32), u32>",
    (Format.keyed (Format.uint32.pair Format.uint32) Format.uint32).rename
      PairMap.entries PairMap.ofList⟩

/-- The state of a scripted aggregate. -/
structure ScriptState where
  total : Int64
  notes : List String
  keyed : PairMap
  deriving DecidableEq

/-- What happens to a scripted aggregate. -/
inductive ScriptEvent where
  | added (amount : Int64)
  | noted (text : String)
  | keyed (pairs : PairMap)
  | mystery
  deriving DecidableEq

/-- A step of a script. -/
inductive ScriptStep where
  | emit (event : ScriptEvent)
  | reject (reason : String)
  deriving DecidableEq

instance : EventKind ScriptEvent where
  kind
    | .added _ => "Added.v1"
    | .noted _ => "Noted.v2"
    | .keyed _ => "Keyed.v1"
    | .mystery => "Mystery.v1"

namespace ScriptState

/-- The state of a new scripted aggregate. -/
def blank : ScriptState := ⟨0, [], ⟨[]⟩⟩

/-- The format of states. -/
def format : Format ScriptState :=
  Format.record
    (Fields.required "total" Format.int64 <|
      Fields.required "notes" Format.string.list <|
      Fields.required "keyed" (Wire.format (α := PairMap)) <| Fields.none)
    (fun s => (s.total, s.notes, s.keyed, ()))
    (fun (total, notes, keyed, _) => ⟨total, notes, keyed⟩)

/-- Adds an amount to the total, which wraps around. -/
def onAdded : Transition ScriptState ScriptEvent
  | .added amount, state => .ok { state with total := state.total + amount }
  | _, state => .ok state

/-- Adds a note. -/
def onNoted : Transition ScriptState ScriptEvent
  | .noted text, state => .ok { state with notes := state.notes ++ [text] }
  | _, state => .ok state

/-- Gives keys their values. -/
def onKeyed : Transition ScriptState ScriptEvent
  | .keyed pairs, state => .ok { state with keyed := state.keyed.insertAll pairs }
  | _, state => .ok state

/-- A table without transitions. -/
def bareMutator : Mutator ScriptState ScriptEvent := .new blank

/-- The table of all transitions. -/
def fullMutator : Mutator ScriptState ScriptEvent :=
  ((bareMutator.register "Added.v1" onAdded).register "Noted.v2" onNoted).register
    "Keyed.v1" onKeyed

end ScriptState

/-- The format of a record with the one field `amount`. -/
def signedAmountRecord : Format Int64 :=
  Format.record (Fields.required "amount" Format.int64 <| Fields.none)
    (fun amount => (amount, ())) Prod.fst

/-- The format of events. -/
def ScriptEvent.format : Format ScriptEvent :=
  Format.union
    (Variants.holding "Added" signedAmountRecord <| Variants.holding "Noted" Format.string <|
      Variants.holding "Keyed" (Wire.format (α := PairMap)) <| Variants.plain "Mystery" <|
      Variants.none)
    (fun
      | .added amount => .inl amount
      | .noted text => .inr (.inl text)
      | .keyed pairs => .inr (.inr (.inl pairs))
      | .mystery => .inr (.inr (.inr (.inl ()))))
    (fun
      | .inl amount => .added amount
      | .inr (.inl text) => .noted text
      | .inr (.inr (.inl pairs)) => .keyed pairs
      | .inr (.inr (.inr (.inl _))) => .mystery)

/-- Follows a script. -/
def ScriptStep.followAll : List ScriptStep → Decision ScriptState ScriptEvent
  | [] => .accept
  | .emit event :: steps => .emit event fun _ => followAll steps
  | .reject reason :: _ => .reject reason

/-- A scripted aggregate type. -/
@[reducible]
def scriptedType (name : String) (tag : TypeTag) (mutator : Mutator ScriptState ScriptEvent)
    [Wire ScriptState] [Wire ScriptEvent] : AggregateType where
  name := name
  tag := tag
  Id := String
  State := ScriptState
  Event := ScriptEvent
  Command := List ScriptStep
  mutator := mutator
  handle command _ := ScriptStep.followAll command.payload

/-- The scripted aggregates of a name. -/
@[reducible]
def probe (name : String) : AggregateType :=
  @scriptedType name ⟨7⟩ ScriptState.fullMutator ⟨"State", ScriptState.format⟩
    ⟨"Event", ScriptEvent.format⟩

end Chronicle.Sample
