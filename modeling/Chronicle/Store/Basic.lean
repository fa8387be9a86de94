import Chronicle.Event

/-!
# Event stores

What every event store offers: appending events to a stream that is at an expected version,
reading a range of a stream, and reading a tenant's log in either direction. An append that
finds the stream at another version fails and stores nothing.
-/

namespace Chronicle

/-! ## Errors -/

/-- Why an operation of an event store fails. -/
inductive StoreError where
  | conflict (stream : StreamId) (expected actual : Version)
  | invalidArgument (reason : String)
  | backend (reason : String)
  | serialization (error : CodecError)
  | translation (error : TranslationError)
  deriving DecidableEq, Repr

namespace StoreError

/-- Whether another writer came first. -/
def isConflict : StoreError → Bool
  | .conflict .. => true
  | _ => false

/-- The text reported for a failure. -/
def message : StoreError → String
  | .conflict stream expected actual =>
    "Concurrency conflict on " ++ stream.text ++ ": expected version " ++ expected.toText ++
      ", found " ++ actual.toText
  | .invalidArgument reason => "Invalid argument: " ++ reason
  | .backend reason => "Backend error: " ++ reason
  | .serialization error => "Serialization error: " ++ error.message
  | .translation error => "Translation error: " ++ error.message

/-- The names of the causes of a failure, from outside in. -/
def label : StoreError → String
  | .conflict .. => "ConcurrencyConflict"
  | .invalidArgument _ => "InvalidArgument"
  | .backend _ => "Backend"
  | .serialization error => "Serialization." ++ error.label
  | .translation error => "Translation." ++ error.label

/-- No events are given to append. -/
def emptyBatch (stream : StreamId) : StoreError :=
  .invalidArgument ("no events to append to " ++ stream.text)

/-- The event at a place of a batch, counted from 1, is not at the version that follows. -/
def misplaced (place : Nat) (stream : StreamId) (found expected : Version) : StoreError :=
  .invalidArgument
    ("event " ++ toString place ++ " of " ++ stream.text ++ " is at " ++ found.toText ++
      ", expected " ++ expected.toText)

/-- A page of no events is asked for. -/
def zeroLimit : StoreError := .invalidArgument "max_count must be greater than zero"

/-- The store cannot be reached. -/
def unavailable : StoreError := .backend "in-memory store is unavailable"

end StoreError

/-! ## Reading streams -/

/-- The stored events of a range of a stream. -/
structure RecordedStream where
  stream : StreamId
  rows : List RecordedEvent
  /-- The version of the last event read, or the lower end of the range. -/
  version : Version
  /-- Whether no event is stored behind `version`. -/
  reachedEnd : Bool
  deriving DecidableEq

/-! ## Reading logs -/

/-- The order in which a log is read. -/
inductive Direction where
  | forward
  | backward
  deriving DecidableEq, Repr

/-- Which events of a log are read, and in which order. -/
structure ReadOptions where
  direction : Direction
  first : Option GlobalPosition
  firstInclusive : Bool
  last : Option GlobalPosition
  lastInclusive : Bool
  /-- What the name of an event's stream must start with. -/
  streamStart : Option String
  /-- How many events are read at most. -/
  limit : Option Nat
  deriving DecidableEq, Repr

namespace ReadOptions

/-- The whole log, from its beginning. -/
def everything : ReadOptions := ⟨.forward, none, false, none, false, none, none⟩

/-- The events behind a position, at most so many. -/
def pageAfter (position : GlobalPosition) (limit : Nat) : ReadOptions :=
  { everything with first := some position, limit := some limit }

/-- Whether a position lies at or above a lower bound. -/
def atLeast (bound : Option GlobalPosition) (inclusive : Bool) (position : GlobalPosition) :
    Bool :=
  match bound with
  | none => true
  | some b => if inclusive then b ≤ position else b < position

/-- Whether a position lies at or below an upper bound. -/
def atMost (bound : Option GlobalPosition) (inclusive : Bool) (position : GlobalPosition) : Bool :=
  match bound with
  | none => true
  | some b => if inclusive then position ≤ b else position < b

/-- Whether a position lies between the bounds. -/
def admitsPosition (options : ReadOptions) (position : GlobalPosition) : Bool :=
  match options.direction with
  | .forward =>
    atLeast options.first options.firstInclusive position &&
      atMost options.last options.lastInclusive position
  | .backward =>
    atMost options.first options.firstInclusive position &&
      atLeast options.last options.lastInclusive position

/-- Whether a stream has the wanted start of its name. -/
def admitsStream (options : ReadOptions) (stream : StreamId) : Bool :=
  match options.streamStart with
  | none => true
  | some start => stream.startsWith start

/-- Whether an event is read. -/
def admits (options : ReadOptions) (position : GlobalPosition) (stream : StreamId) : Bool :=
  options.admitsPosition position && options.admitsStream stream

end ReadOptions

/-- A part of a log. -/
structure LogSlice where
  rows : List RecordedEvent
  /-- The position of the last event read. -/
  lastPosition : Option GlobalPosition
  /-- Whether the limit held nothing back. -/
  reachedEnd : Bool
  deriving DecidableEq

/-! ## What a store offers -/

/-- An event store, as the engine uses it. -/
class EventStore (S : Type) where
  /-- Makes the store ready for use. -/
  setUp : S → Except StoreError S
  /-- Appends events to a stream that is at the expected version and tells its new version. -/
  append : S → TenantId → StreamId → Version → List SerializedEvent →
    Checked (Except StoreError Version × S)
  /-- Reads a range of a stream. -/
  loadStream : S → TenantId → StreamId → VersionRange → Except StoreError RecordedStream
  /-- Reads a part of a tenant's log. -/
  loadLog : S → TenantId → ReadOptions → Except StoreError LogSlice

end Chronicle
