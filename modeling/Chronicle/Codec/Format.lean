import Chronicle.Codec.Json
import Chronicle.Duration
import Chronicle.Timestamp
import Chronicle.Uuid

/-!
# Formats of values

A `Format` says how the values of a type are written as bytes and as JSON, and how they are read
back. Formats of records and tagged unions are put together from those of their parts, so a law
of all formats is shown once for every way of putting together.

In the binary form numbers have a fixed width with the lowest byte first, texts and lists are
preceded by their length in eight bytes, an alternative by its number in four; nothing marks a
field. Reading takes what it needs and leaves the bytes behind.

In the JSON form a record is an object or, when read, also the array of its fields. Members that
the record does not know are passed over, but a known one may not occur twice.
-/

namespace Chronicle

/-- How the values of a type are written and read. -/
structure Format (α : Type) where
  /-- The bytes of a value. -/
  toBinary : α → Bytes
  /-- Reads a value and leaves the bytes behind it. -/
  ofBinary : Bytes → Option (α × Bytes)
  /-- The JSON form of a value, if it has one. -/
  toJson : α → Option Json
  /-- Reads the JSON form of a value. -/
  ofJson : Json → Option α
  /-- The value of a record's field that is not there, if it need not be. -/
  missing : Option α

namespace Format

/-! ## Changing the type -/

/-- The format of the values that stand for some of the values of another format. -/
def refine {α β : Type} (f : Format α) (into : β → α) (of? : α → Option β) : Format β where
  toBinary value := f.toBinary (into value)
  ofBinary bytes := do
    let (raw, rest) ← f.ofBinary bytes
    return (← of? raw, rest)
  toJson value := f.toJson (into value)
  ofJson json := (f.ofJson json).bind of?
  missing := f.missing.bind of?

/-- The format of a type that is another one under a new name. -/
def rename {α β : Type} (f : Format α) (into : β → α) (of : α → β) : Format β :=
  f.refine into (some ∘ of)

/-! ## Numbers, truth values and texts -/

/-- Numbers of `width` bytes. -/
def natural (width : Nat) : Format Nat where
  toBinary n := Bytes.littleEndian width n
  ofBinary := Bytes.number? width
  toJson n := some (Json.int n)
  ofJson
    | .number n => do
      let i ← n.toInt?
      if 0 ≤ i ∧ i < Bytes.capacity width then some i.toNat else none
    | _ => none
  missing := none

/-- Numbers of eight bits. -/
def uint8 : Format UInt8 := (natural 1).rename UInt8.toNat UInt8.ofNat

/-- Numbers of 32 bits. -/
def uint32 : Format UInt32 := (natural 4).rename UInt32.toNat UInt32.ofNat

/-- Numbers of 64 bits. -/
def uint64 : Format UInt64 := (natural 8).rename UInt64.toNat UInt64.ofNat

/-- Signed numbers of `width` bytes, in two's complement. -/
def integer (width : Nat) : Format Int where
  toBinary i := Bytes.littleEndian width (i % Bytes.capacity width).toNat
  ofBinary bytes :=
    (Bytes.number? width bytes).map fun (n, rest) => ((n : Int).bmod (Bytes.capacity width), rest)
  toJson i := some (Json.int i)
  ofJson
    | .number n => do
      let i ← n.toInt?
      let half : Nat := Bytes.capacity width / 2
      if -half ≤ i ∧ i < half then some i else none
    | _ => none
  missing := none

/-- Signed numbers of 32 bits. -/
def int32 : Format Int32 := (integer 4).rename Int32.toInt Int32.ofInt

/-- Signed numbers of 64 bits. -/
def int64 : Format Int64 := (integer 8).rename Int64.toInt Int64.ofInt

/-- Truth values, in one byte. -/
def bool : Format Bool where
  toBinary b := [if b then 1 else 0]
  ofBinary
    | [] => none
    | byte :: rest =>
      if byte = 0 then some (false, rest) else if byte = 1 then some (true, rest) else none
  toJson b := some (.bool b)
  ofJson
    | .bool b => some b
    | _ => none
  missing := none

/-- Runs of bytes behind their length. -/
def sizedBytes (bytes : Bytes) : Bytes := Bytes.littleEndian 8 bytes.length ++ bytes

/-- Reads a run of bytes behind its length. -/
def sizedBytes? (bytes : Bytes) : Option (Bytes × Bytes) := do
  let (size, rest) ← Bytes.number? 8 bytes
  rest.split? size

/-- Texts. -/
def string : Format String where
  toBinary text := sizedBytes (Bytes.ofText text)
  ofBinary bytes := do
    let (content, rest) ← sizedBytes? bytes
    return (← Bytes.toText? content, rest)
  toJson text := some (Json.str text)
  ofJson
    | .text content => content
    | _ => none
  missing := none

/-- Values written as texts in both forms. -/
def viaText {α : Type} (into : α → String) (of? : String → Option α) : Format α :=
  string.refine into of?

/-- Points in time, as texts. -/
def timestamp : Format Timestamp := viaText Timestamp.toText Timestamp.ofText?

/-- Identifiers: the bytes in the binary form, a text in the JSON form. -/
def uuid : Format Uuid where
  toBinary u := sizedBytes u.bytes
  ofBinary bytes := do
    let (content, rest) ← sizedBytes? bytes
    return (← Uuid.ofBytes? content, rest)
  toJson u := some (Json.str u.toText)
  ofJson
    | .text content => content.bind Uuid.ofText?
    | _ => none
  missing := none

/-! ## Values that may be absent, lists and maps -/

/-- Values that may be absent. -/
def option {α : Type} (f : Format α) : Format (Option α) where
  toBinary
    | none => [0]
    | some value => 1 :: f.toBinary value
  ofBinary
    | [] => none
    | byte :: rest =>
      if byte = 0 then some (none, rest)
      else if byte = 1 then (f.ofBinary rest).map fun (value, tail) => (some value, tail)
      else none
  toJson
    | none => some .null
    | some value => f.toJson value
  ofJson
    | .null => some none
    | json => (f.ofJson json).map some
  missing := some none

/-- Reads so many values one after the other. -/
def repeated? {α : Type} (ofBinary : Bytes → Option (α × Bytes)) :
    Nat → Bytes → Option (List α × Bytes)
  | 0, bytes => some ([], bytes)
  | count + 1, bytes => do
    let (value, rest) ← ofBinary bytes
    let (values, tail) ← repeated? ofBinary count rest
    return (value :: values, tail)

/-- Lists. -/
def list {α : Type} (f : Format α) : Format (List α) where
  toBinary values := Bytes.littleEndian 8 values.length ++ values.flatMap f.toBinary
  ofBinary bytes := do
    let (count, rest) ← Bytes.number? 8 bytes
    repeated? f.ofBinary count rest
  toJson values := (values.mapM f.toJson).map .array
  ofJson
    | .array items => items.mapM f.ofJson
    | _ => none
  missing := none

/-- Two values, one after the other. -/
def pair {α β : Type} (f : Format α) (g : Format β) : Format (α × β) where
  toBinary value := f.toBinary value.1 ++ g.toBinary value.2
  ofBinary bytes := do
    let (a, rest) ← f.ofBinary bytes
    let (b, tail) ← g.ofBinary rest
    return ((a, b), tail)
  toJson value := do
    let a ← f.toJson value.1
    let b ← g.toJson value.2
    return .array [a, b]
  ofJson
    | .array [a, b] => do
      return (← f.ofJson a, ← g.ofJson b)
    | _ => none
  missing := none

/-- Maps whose keys have no text: in the JSON form only the empty map can be written. -/
def keyed {α β : Type} (f : Format α) (g : Format β) : Format (List (α × β)) where
  toBinary := (f.pair g).list.toBinary
  ofBinary := (f.pair g).list.ofBinary
  toJson
    | [] => some (.object [])
    | _ :: _ => none
  ofJson
    | .object [] => some []
    | _ => none
  missing := none

end Format

/-! ## Records -/

/-- The fields of a record, in their order. -/
structure Fields (α : Type) where
  names : List String
  toBinary : α → Bytes
  ofBinary : Bytes → Option (α × Bytes)
  toMembers : α → Option (List (String × Json))
  /-- Reads the fields where a look-up tells each one's JSON form. -/
  ofMembers : (String → Option Json) → Option α
  /-- Reads the fields from the items of an array, all of which must be used. -/
  ofItems : List Json → Option α

namespace Fields

/-- No fields. -/
def none : Fields Unit where
  names := []
  toBinary _ := []
  ofBinary bytes := some ((), bytes)
  toMembers _ := some []
  ofMembers _ := some ()
  ofItems items := if items.isEmpty then some () else Option.none

/-- One more field in front. Where it is not there, `absent` takes its place in an object and
`short` at the end of an array. -/
def field {α β : Type} (name : String) (f : Format α) (absent short : Option α)
    (rest : Fields β) : Fields (α × β) where
  names := name :: rest.names
  toBinary value := f.toBinary value.1 ++ rest.toBinary value.2
  ofBinary bytes := do
    let (first, tail) ← f.ofBinary bytes
    let (others, tail) ← rest.ofBinary tail
    return ((first, others), tail)
  toMembers value := do
    let first ← f.toJson value.1
    let others ← rest.toMembers value.2
    return (name, first) :: others
  ofMembers find := do
    let first ← match find name with
      | some json => f.ofJson json
      | Option.none => absent
    let others ← rest.ofMembers find
    return (first, others)
  ofItems
    | [] => do
      let first ← short
      let others ← rest.ofItems []
      return (first, others)
    | json :: items => do
      let first ← f.ofJson json
      let others ← rest.ofItems items
      return (first, others)

/-- A field that must be there, unless its own format has a value for its absence. -/
def required {α β : Type} (name : String) (f : Format α) (rest : Fields β) : Fields (α × β) :=
  field name f f.missing Option.none rest

/-- A field with a value for its absence. -/
def optional {α β : Type} (name : String) (f : Format α) (default : α) (rest : Fields β) :
    Fields (α × β) :=
  field name f (some default) (some default) rest

/-- How often a name occurs among the members of an object. -/
def occurrences (name : String) (members : List (Option String × Json)) : Nat :=
  (members.filter fun member => member.1 == some name).length

/-- Whether the members of an object are read at all: every name is a text, no known name occurs
twice, and in a `closed` record every name is known. -/
def admits (names : List String) (closed : Bool) (members : List (Option String × Json)) : Bool :=
  members.all (fun member => match member.1 with
    | some name => !closed || names.contains name
    | Option.none => false) &&
  names.all fun name => occurrences name members ≤ 1

/-- The JSON form under a name, if an object has the name. -/
def find (members : List (Option String × Json)) (name : String) : Option Json :=
  (members.find? fun member => member.1 == some name).map Prod.snd

/-- The format of a record. -/
def format {α : Type} (fields : Fields α) (closed : Bool) : Format α where
  toBinary := fields.toBinary
  ofBinary := fields.ofBinary
  toJson value := (fields.toMembers value).map Json.record
  ofJson
    | .object members =>
      if admits fields.names closed members then fields.ofMembers (find members) else Option.none
    | .array items => fields.ofItems items
    | _ => Option.none
  missing := Option.none

end Fields

namespace Format

/-- The format of a record whose unknown members are passed over. -/
def record {α β : Type} (fields : Fields α) (into : β → α) (of : α → β) : Format β :=
  (fields.format false).rename into of

/-- The fields of a span of time: whole seconds and the nanoseconds beyond. -/
def durationFields : Fields (UInt64 × UInt32 × Unit) :=
  Fields.required "secs" uint64 <| Fields.required "nanos" uint32 <| Fields.none

/-- Spans of time, as a record that refuses unknown members. -/
def duration : Format Duration :=
  (durationFields.format true).refine
    (fun d => (UInt64.ofNat d.seconds, UInt32.ofNat d.subsecNanos, ()))
    (fun (seconds, nanos, _) => Duration.ofParts? seconds nanos)

end Format

/-! ## Tagged unions -/

/-- The alternatives of a tagged union, numbered from 0. -/
structure Variants (α : Type) where
  /-- The number of alternatives. -/
  count : Nat
  /-- The number of a value's alternative and the bytes behind it. -/
  toBinary : α → Nat × Bytes
  /-- Reads what stands behind the number of an alternative. -/
  ofBinary : Nat → Bytes → Option (α × Bytes)
  toJson : α → Option Json
  /-- The alternative that a text alone stands for. -/
  ofText : String → Option α
  /-- Reads the alternative under a name. -/
  ofMember : String → Json → Option α

namespace Variants

/-- No alternatives. -/
def none : Variants Empty where
  count := 0
  toBinary := nofun
  ofBinary _ _ := Option.none
  toJson := nofun
  ofText _ := Option.none
  ofMember _ _ := Option.none

/-- One more alternative in front, which has no content. -/
def plain {β : Type} (name : String) (rest : Variants β) : Variants (Unit ⊕ β) where
  count := rest.count + 1
  toBinary
    | .inl _ => (0, [])
    | .inr value => let (number, bytes) := rest.toBinary value; (number + 1, bytes)
  ofBinary
    | 0, bytes => some (.inl (), bytes)
    | number + 1, bytes =>
      (rest.ofBinary number bytes).map fun (value, tail) => (.inr value, tail)
  toJson
    | .inl _ => some (Json.str name)
    | .inr value => rest.toJson value
  ofText text := if text = name then some (.inl ()) else (rest.ofText text).map .inr
  ofMember text json :=
    if text = name then
      match json with
      | .null => some (.inl ())
      | _ => Option.none
    else (rest.ofMember text json).map .inr

/-- One more alternative in front, which has a content. -/
def holding {α β : Type} (name : String) (f : Format α) (rest : Variants β) :
    Variants (α ⊕ β) where
  count := rest.count + 1
  toBinary
    | .inl value => (0, f.toBinary value)
    | .inr value => let (number, bytes) := rest.toBinary value; (number + 1, bytes)
  ofBinary
    | 0, bytes => (f.ofBinary bytes).map fun (value, tail) => (.inl value, tail)
    | number + 1, bytes =>
      (rest.ofBinary number bytes).map fun (value, tail) => (.inr value, tail)
  toJson
    | .inl value => (f.toJson value).map fun json => Json.record [(name, json)]
    | .inr value => rest.toJson value
  ofText text := if text = name then Option.none else (rest.ofText text).map .inr
  ofMember text json :=
    if text = name then (f.ofJson json).map .inl else (rest.ofMember text json).map .inr

/-- The format of a tagged union. -/
def format {α : Type} (variants : Variants α) : Format α where
  toBinary value :=
    let (number, bytes) := variants.toBinary value
    Bytes.littleEndian 4 number ++ bytes
  ofBinary bytes := do
    let (number, rest) ← Bytes.number? 4 bytes
    variants.ofBinary number rest
  toJson := variants.toJson
  ofJson
    | .text (some text) => variants.ofText text
    | .object [(some text, json)] => variants.ofMember text json
    | _ => Option.none
  missing := Option.none

end Variants

/-- The format of a type that is a tagged union under a new name. -/
def Format.union {α β : Type} (variants : Variants α) (into : β → α) (of : α → β) : Format β :=
  variants.format.rename into of

end Chronicle
