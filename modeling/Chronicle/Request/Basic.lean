import Chronicle.Codec.Json
import Chronicle.Codec.Number
import Chronicle.Codec.Format

/-!
# Requests

A `Request` is a JSON document whose members say what is asked for. A member that is missing, or
null, or of another kind than what is looked for, counts as not given, and each look-up names
what holds then.
-/

namespace Chronicle

/-- A document that asks for something. -/
abbrev Request := Json

namespace Request

/-- The text that a request is. -/
def asText? : Request → Option String
  | .text content => content
  | _ => none

/-- The integer that a request is. -/
def asInt? : Request → Option Int
  | .number n => n.toInt?
  | _ => none

/-- The items of a request that is an array. -/
def asList : Request → List Request
  | .array items => items
  | _ => []

/-- The number of floating point that a request is; the values that no literal spells stand as
texts. -/
def asFloat? : Request → Option Float
  | .number n => n.toFloat?
  | .text (some "inf") => some (1 / 0)
  | .text (some "-inf") => some (-1 / 0)
  | .text (some "nan") => some (0 / 0)
  | _ => none

/-- The member under a name. -/
def member? (r : Request) (name : String) : Option Request :=
  match r with
  | .object members =>
    match Fields.find members name with
    | some .null => none
    | found => found
  | _ => none

/-- The member under a name, or null. -/
def part (r : Request) (name : String) : Request := (r.member? name).getD .null

/-- The text under a name. -/
def text? (r : Request) (name : String) : Option String := (r.member? name).bind asText?

/-- The text under a name, or a default. -/
def textOr (r : Request) (name default : String) : String := (r.text? name).getD default

/-- The integer under a name. -/
def int? (r : Request) (name : String) : Option Int := (r.member? name).bind asInt?

/-- The natural number under a name. -/
def nat? (r : Request) (name : String) : Option Nat := (r.int? name).map Int.toNat

/-- The natural number under a name, or a default. -/
def natOr (r : Request) (name : String) (default : Nat) : Nat := (r.nat? name).getD default

/-- The word of 64 bits under a name. -/
def word? (r : Request) (name : String) : Option UInt64 := (r.nat? name).map UInt64.ofNat

/-- The word of 64 bits under a name, or a default. -/
def wordOr (r : Request) (name : String) (default : UInt64) : UInt64 := (r.word? name).getD default

/-- The truth value under a name. -/
def bool? (r : Request) (name : String) : Option Bool :=
  match r.member? name with
  | some (.bool b) => some b
  | _ => none

/-- Whether the member under a name is true. -/
def isTrue (r : Request) (name : String) : Bool := (r.bool? name).getD false

/-- The items of the array under a name. -/
def list (r : Request) (name : String) : List Request := asList (r.part name)

/-- The texts in the array under a name. -/
def texts (r : Request) (name : String) : List String := (r.list name).filterMap asText?

/-- The natural numbers in the array under a name. -/
def nats (r : Request) (name : String) : List Nat :=
  ((r.list name).filterMap asInt?).map Int.toNat

end Request

end Chronicle
