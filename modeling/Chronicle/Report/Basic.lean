import Chronicle.Codec.Json
import Chronicle.Command
import Chronicle.Duration
import Chronicle.Uuid

/-!
# Reports

A report is a JSON document that shows values of the library: numbers as integers, bytes and
numbers of floating point as hexadecimal digits, points of time as texts, and a value that is
not there as null. An identity is shown as the number that it is.
-/

namespace Chronicle.Report

/-- A natural number. -/
def num (n : Nat) : Json := Json.int n

/-- A word of 64 bits. -/
def word (n : UInt64) : Json := num n.toNat

/-- A list. -/
def arr (items : List Json) : Json := .array items

/-- A value that may be missing. -/
def opt {α : Type} (f : α → Json) : Option α → Json
  | some a => f a
  | none => .null

/-- Bytes. -/
def hex (bytes : Bytes) : Json := .str (String.ofList (Uuid.hexText bytes))

/-- The text that some bytes encode. -/
def content (bytes : Bytes) : Json := .str ((Bytes.toText? bytes).getD "")

/-- An identity. -/
def uuid (u : Uuid) : Json := num u.toNat

/-- A version. -/
def version (v : Version) : Json := word v.val

/-- A place in the log. -/
def position (p : GlobalPosition) : Json := word p.val

/-- A type tag. -/
def tag (t : TypeTag) : Json := num t.val.toNat

/-- A span of time. -/
def duration (d : Duration) : Json :=
  Json.record [("secs", num d.seconds), ("nanos", num d.subsecNanos)]

/-- The bits of a number of floating point. -/
def float (f : Float) : Json := hex (Uuid.bigEndian 8 f.toBits.toNat)

/-- The order of two words: -1, 0 or 1. -/
def order (a b : UInt64) : Json := Json.int (if a = b then 0 else if a < b then -1 else 1)

/-- The members for the result of a command. -/
def resultMembers (r : CommandResult) : List (String × Json) :=
  [("accepted", .bool r.accepted), ("has_changes", .bool r.hasChanges),
    ("reason", opt Json.str r.reason), ("version", version r.version)]

/-- The result of a command. -/
def result (r : CommandResult) : Json := Json.record (resultMembers r)

end Chronicle.Report
