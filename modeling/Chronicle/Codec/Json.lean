import Chronicle.Codec.Bytes

/-!
# JSON documents

A document is read from bytes into a tree that keeps what its reader may still refuse: a text
whose escapes or bytes form no characters has no content, and a number is kept as it was
written. So a part of a document that nobody reads does no harm.

Documents are written in the compact form, without blanks, and with escapes only where the
format demands them.
-/

namespace Chronicle

/-- A number as it is written: sign, whole part, digits of the fraction, power of ten. -/
structure Json.Number where
  negative : Bool
  whole : Nat
  fraction : List Nat
  exponent : Option Int
  deriving DecidableEq, Repr

/-- A JSON document. -/
inductive Json where
  | null
  | bool (value : Bool)
  | number (value : Json.Number)
  | text (content : Option String)
  | array (items : List Json)
  | object (members : List (Option String × Json))

namespace Json

/-- A document that is one text. -/
def str (content : String) : Json := .text (some content)

/-- A document that is one integer. -/
def int (n : Int) : Json := .number ⟨n < 0, n.natAbs, [], none⟩

/-- A document that is one object with the given members. -/
def record (members : List (String × Json)) : Json :=
  .object (members.map fun (name, value) => (some name, value))

/-! ## Writing -/

/-- The ASCII bytes of a text. -/
def ascii (text : String) : Bytes := text.toList.map fun c => UInt8.ofNat c.toNat

/-- The byte of a decimal digit. -/
def digitByte (d : Nat) : UInt8 := UInt8.ofNat (48 + d)

/-- The decimal digits of a number. -/
def decimal (n : Nat) : Bytes :=
  if n < 10 then [digitByte n] else decimal (n / 10) ++ [digitByte (n % 10)]
termination_by n
decreasing_by omega

/-- A lower-case hexadecimal digit. -/
def hexByte (d : Nat) : UInt8 := UInt8.ofNat (if d < 10 then 48 + d else 87 + d)

/-- One byte of a text between its quotes. Control characters, quotes and backslashes are
escaped; the bytes of every other character stand as they are. -/
def escapedByte (byte : UInt8) : Bytes :=
  match byte.toNat with
  | 0x22 => [0x5c, 0x22]
  | 0x5c => [0x5c, 0x5c]
  | 0x08 => [0x5c, 0x62]
  | 0x0c => [0x5c, 0x66]
  | 0x0a => [0x5c, 0x6e]
  | 0x0d => [0x5c, 0x72]
  | 0x09 => [0x5c, 0x74]
  | n =>
    if n < 0x20 then [0x5c, 0x75, 0x30, 0x30, hexByte (n / 16), hexByte (n % 16)] else [byte]

/-- A text between quotes. -/
def renderText (content : String) : Bytes :=
  0x22 :: (Bytes.ofText content).flatMap escapedByte ++ [0x22]

/-- A number as it was written. -/
def renderNumber (n : Number) : Bytes :=
  (if n.negative then [0x2d] else []) ++ decimal n.whole ++
    (if n.fraction = [] then [] else 0x2e :: n.fraction.map digitByte) ++
    match n.exponent with
    | none => []
    | some e => 0x65 :: (if e < 0 then [0x2d] else []) ++ decimal e.natAbs

mutual

/-- The compact form of a document. -/
def render : Json → Bytes
  | .null => ascii "null"
  | .bool true => ascii "true"
  | .bool false => ascii "false"
  | .number n => renderNumber n
  | .text content => renderText (content.getD "")
  | .array [] => [0x5b, 0x5d]
  | .array (item :: items) => 0x5b :: render item ++ renderItems items
  | .object [] => [0x7b, 0x7d]
  | .object ((name, value) :: members) =>
    0x7b :: renderText (name.getD "") ++ 0x3a :: render value ++ renderMembers members

/-- The further items of an array and its end. -/
def renderItems : List Json → Bytes
  | [] => [0x5d]
  | item :: items => 0x2c :: render item ++ renderItems items

/-- The further members of an object and its end. -/
def renderMembers : List (Option String × Json) → Bytes
  | [] => [0x7d]
  | (name, value) :: members =>
    0x2c :: renderText (name.getD "") ++ 0x3a :: render value ++ renderMembers members

end

/-! ## Reading -/

/-- Whether a byte is a blank between the parts of a document. -/
def isBlank (byte : UInt8) : Bool := byte == 0x20 || byte == 0x09 || byte == 0x0a || byte == 0x0d

/-- The bytes behind the blanks in front. -/
def skipBlanks (bytes : Bytes) : Bytes := bytes.dropWhile isBlank

/-- The value of a decimal digit. -/
def digit? (byte : UInt8) : Option Nat :=
  if 48 ≤ byte.toNat ∧ byte.toNat ≤ 57 then some (byte.toNat - 48) else none

/-- The digits in front and the bytes behind them. -/
def digits : Bytes → List Nat × Bytes
  | [] => ([], [])
  | byte :: rest =>
    match digit? byte with
    | some d => (d :: (digits rest).1, (digits rest).2)
    | none => ([], byte :: rest)

/-- The number that digits spell. -/
def ofDigits (ds : List Nat) : Nat := ds.foldl (fun acc d => acc * 10 + d) 0

/-- The whole part of a number, which has no zero in front. -/
def whole? (bytes : Bytes) : Option (Nat × Bytes) :=
  match digits bytes with
  | ([], _) => none
  | ([d], rest) => some (d, rest)
  | (0 :: _, _) => none
  | (ds, rest) => some (ofDigits ds, rest)

/-- The digits behind a point, of which there is one at least. -/
def fraction? : Bytes → Option (List Nat × Bytes)
  | 0x2e :: rest =>
    match digits rest with
    | ([], _) => none
    | (ds, tail) => some (ds, tail)
  | bytes => some ([], bytes)

/-- The power of ten behind a number. -/
def power? (bytes : Bytes) : Option (Option Int × Bytes) :=
  let unsigned (negative : Bool) (rest : Bytes) : Option (Option Int × Bytes) :=
    match digits rest with
    | ([], _) => none
    | (ds, tail) => some (some (if negative then -(ofDigits ds : Int) else ofDigits ds), tail)
  match bytes with
  | e :: rest =>
    if e = 0x65 ∨ e = 0x45 then
      match rest with
      | 0x2b :: tail => unsigned false tail
      | 0x2d :: tail => unsigned true tail
      | _ => unsigned false rest
    else some (none, bytes)
  | [] => some (none, [])

/-- Reads the rest of a number behind its sign. -/
def number? (negative : Bool) (bytes : Bytes) : Option (Number × Bytes) := do
  let (whole, rest) ← whole? bytes
  let (fraction, rest) ← fraction? rest
  let (exponent, rest) ← power? rest
  return (⟨negative, whole, fraction, exponent⟩, rest)

/-- A piece of a text: a byte that stands for itself, or an escaped UTF-16 unit. -/
inductive Piece where
  | byte (b : UInt8)
  | unit (u : Nat)
  deriving DecidableEq, Repr

/-- The value of a hexadecimal digit of either case. -/
def hexDigit? (byte : UInt8) : Option Nat :=
  let n := byte.toNat
  if 48 ≤ n ∧ n ≤ 57 then some (n - 48)
  else if 97 ≤ n ∧ n ≤ 102 then some (n - 87)
  else if 65 ≤ n ∧ n ≤ 70 then some (n - 55)
  else none

/-- The byte that a short escape stands for. -/
def shortEscape? (byte : UInt8) : Option UInt8 :=
  match byte.toNat with
  | 0x22 => some 0x22
  | 0x5c => some 0x5c
  | 0x2f => some 0x2f
  | 0x62 => some 0x08
  | 0x66 => some 0x0c
  | 0x6e => some 0x0a
  | 0x72 => some 0x0d
  | 0x74 => some 0x09
  | _ => none

/-- The pieces of a text up to its closing quote. -/
def pieces? : Bytes → Option (List Piece × Bytes)
  | [] => none
  | 0x22 :: rest => some ([], rest)
  | 0x5c :: 0x75 :: a :: b :: c :: d :: rest => do
    let u := ((← hexDigit? a) * 16 + (← hexDigit? b)) * 256 + (← hexDigit? c) * 16 + (← hexDigit? d)
    let (ps, tail) ← pieces? rest
    return (.unit u :: ps, tail)
  | 0x5c :: e :: rest => do
    let b ← shortEscape? e
    let (ps, tail) ← pieces? rest
    return (.byte b :: ps, tail)
  | [0x5c] => none
  | b :: rest =>
    if b.toNat < 0x20 then none
    else do
      let (ps, tail) ← pieces? rest
      return (.byte b :: ps, tail)

/-- The bytes of a character. -/
def charBytes (codePoint : Nat) : Bytes := Bytes.ofText (String.singleton (Char.ofNat codePoint))

/-- The bytes that pieces form. A high surrogate must be followed by a low one, and a low one
never stands alone. -/
def joinPieces? : List Piece → Option Bytes
  | [] => some []
  | .byte b :: rest => (joinPieces? rest).map (b :: ·)
  | .unit high :: .unit low :: rest =>
    if 0xd800 ≤ high ∧ high < 0xdc00 then
      if 0xdc00 ≤ low ∧ low < 0xe000 then
        (joinPieces? rest).map
          (charBytes (0x10000 + (high - 0xd800) * 0x400 + (low - 0xdc00)) ++ ·)
      else none
    else if 0xdc00 ≤ high ∧ high < 0xe000 then none
    else (joinPieces? (.unit low :: rest)).map (charBytes high ++ ·)
  | .unit u :: rest =>
    if 0xd800 ≤ u ∧ u < 0xe000 then none else (joinPieces? rest).map (charBytes u ++ ·)

/-- The content of a text, if its pieces form characters. -/
def content? (ps : List Piece) : Option String := (joinPieces? ps).bind Bytes.toText?

/-- The bytes behind an expected run of bytes. -/
def expect? : Bytes → Bytes → Option Bytes
  | [], bytes => some bytes
  | e :: expected, b :: bytes => if e = b then expect? expected bytes else none
  | _ :: _, [] => none

mutual

/-- Reads one document, blanks before it skipped. Each nested step spends one unit of the depth
allowed. -/
def value? : Nat → Bytes → Option (Json × Bytes)
  | 0, _ => none
  | depth + 1, bytes =>
    match skipBlanks bytes with
    | [] => none
    | b :: rest =>
      match b.toNat with
      | 0x6e => (expect? (ascii "ull") rest).map fun tail => (.null, tail)
      | 0x74 => (expect? (ascii "rue") rest).map fun tail => (.bool true, tail)
      | 0x66 => (expect? (ascii "alse") rest).map fun tail => (.bool false, tail)
      | 0x22 => (pieces? rest).map fun (ps, tail) => (.text (content? ps), tail)
      | 0x2d => (number? true rest).map fun (n, tail) => (.number n, tail)
      | 0x5b =>
        match skipBlanks rest with
        | 0x5d :: tail => some (.array [], tail)
        | _ => (items? depth rest).map fun (items, tail) => (.array items, tail)
      | 0x7b =>
        match skipBlanks rest with
        | 0x7d :: tail => some (.object [], tail)
        | _ => (members? depth rest).map fun (members, tail) => (.object members, tail)
      | _ => (number? false (b :: rest)).map fun (n, tail) => (.number n, tail)

/-- Reads the items of an array, of which there is one at least, and its end. -/
def items? : Nat → Bytes → Option (List Json × Bytes)
  | 0, _ => none
  | depth + 1, bytes => do
    let (item, rest) ← value? depth bytes
    match skipBlanks rest with
    | 0x5d :: tail => return ([item], tail)
    | 0x2c :: tail =>
      let (items, tail) ← items? depth tail
      return (item :: items, tail)
    | _ => none

/-- Reads the members of an object, of which there is one at least, and its end. -/
def members? : Nat → Bytes → Option (List (Option String × Json) × Bytes)
  | 0, _ => none
  | depth + 1, bytes =>
    match skipBlanks bytes with
    | 0x22 :: rest => do
      let (ps, rest) ← pieces? rest
      match skipBlanks rest with
      | 0x3a :: rest =>
        let (value, rest) ← value? depth rest
        match skipBlanks rest with
        | 0x7d :: tail => return ([(content? ps, value)], tail)
        | 0x2c :: tail =>
          let (members, tail) ← members? depth tail
          return ((content? ps, value) :: members, tail)
        | _ => none
      | _ => none
    | _ => none

end

/-- Reads a document that fills its bytes but for blanks. -/
def parse? (bytes : Bytes) : Option Json := do
  let (value, rest) ← value? (2 * bytes.length + 2) bytes
  if skipBlanks rest = [] then some value else none

/-! ## Reading numbers -/

/-- The number that an integer literal spells, if it is one of 64 bits. A minus sign needs a
number other than zero behind it. -/
def Number.toInt? (n : Number) : Option Int :=
  if n.fraction = [] ∧ n.exponent = none then
    if n.negative then
      if 0 < n.whole ∧ n.whole ≤ 0x8000000000000000 then some (-(n.whole : Int)) else none
    else if n.whole < 0x10000000000000000 then some n.whole else none
  else none

end Json

end Chronicle
