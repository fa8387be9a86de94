import Chronicle.Codec.Bytes

/-!
# Universally unique identifiers

Sixteen bytes, written as 32 lower-case hexadecimal digits with hyphens after the fourth, sixth,
eighth and tenth byte. Reading also takes capital digits, the form without hyphens, and the
hyphenated form in braces or behind the URN scheme.
-/

namespace Chronicle

/-- An identifier of sixteen bytes. -/
structure Uuid where
  bytes : Bytes
  size_bytes : bytes.length = 16
  deriving DecidableEq

namespace Uuid

/-! ## Numbers -/

/-- The `width` lowest bytes of a number, the highest first. -/
def bigEndian (width n : Nat) : Bytes := (Bytes.littleEndian width n).reverse

theorem length_bigEndian (width n : Nat) : (bigEndian width n).length = width := by
  simp [bigEndian, Bytes.length_littleEndian]

/-- The identifier whose bytes spell a number of 128 bits. -/
def ofNat (n : Nat) : Uuid := ⟨bigEndian 16 n, length_bigEndian 16 n⟩

/-- The number that the bytes spell. -/
def toNat (u : Uuid) : Nat := u.bytes.foldl (fun acc byte => acc * 256 + byte.toNat) 0

instance : Inhabited Uuid := ⟨ofNat 0⟩

/-- The identifier of sixteen given bytes. -/
def ofBytes? (bytes : Bytes) : Option Uuid :=
  if h : bytes.length = 16 then some ⟨bytes, h⟩ else none

/-! ## Text -/

/-- A lower-case hexadecimal digit. -/
def hexDigit (n : Nat) : Char :=
  if n < 10 then Char.ofNat ('0'.toNat + n) else Char.ofNat ('a'.toNat + (n - 10))

/-- The two digits of a byte. -/
def hexPair (byte : UInt8) : List Char := [hexDigit (byte.toNat / 16), hexDigit (byte.toNat % 16)]

/-- The digits of some bytes. -/
def hexText (bytes : Bytes) : List Char := bytes.flatMap hexPair

/-- The text of an identifier. -/
def toText (u : Uuid) : String :=
  String.ofList <|
    hexText (u.bytes.take 4) ++ '-' :: hexText ((u.bytes.drop 4).take 2) ++
      '-' :: hexText ((u.bytes.drop 6).take 2) ++ '-' :: hexText ((u.bytes.drop 8).take 2) ++
      '-' :: hexText (u.bytes.drop 10)

/-- The value of a hexadecimal digit of either case. -/
def hexValue? (c : Char) : Option Nat :=
  if '0' ≤ c ∧ c ≤ '9' then some (c.toNat - '0'.toNat)
  else if 'a' ≤ c ∧ c ≤ 'f' then some (c.toNat - 'a'.toNat + 10)
  else if 'A' ≤ c ∧ c ≤ 'F' then some (c.toNat - 'A'.toNat + 10)
  else none

/-- The bytes that pairs of digits spell. -/
def hexBytes? : List Char → Option (Bytes)
  | [] => some []
  | [_] => none
  | high :: low :: rest => do
    let h ← hexValue? high
    let l ← hexValue? low
    let bytes ← hexBytes? rest
    return UInt8.ofNat (16 * h + l) :: bytes

/-- Reads 32 digits without hyphens. -/
def ofPlain? (digits : List Char) : Option Uuid := (hexBytes? digits).bind ofBytes?

/-- Reads 36 characters, digits in five groups with hyphens between them. -/
def ofHyphenated? (text : List Char) : Option Uuid :=
  if text.length = 36 ∧ text[8]? = some '-' ∧ text[13]? = some '-' ∧ text[18]? = some '-' ∧
      text[23]? = some '-' then
    ofPlain? (text.take 8 ++ (text.drop 9).take 4 ++ (text.drop 14).take 4 ++
      (text.drop 19).take 4 ++ text.drop 24)
  else none

/-- The scheme in front of an identifier written as a URN. -/
def urnScheme : List Char := "urn:uuid:".toList

/-- Reads an identifier in any of its written forms. -/
def ofText? (text : String) : Option Uuid :=
  let chars := text.toList
  match chars.length with
  | 32 => ofPlain? chars
  | 36 => ofHyphenated? chars
  | 38 =>
    if chars.head? = some '\x7b' ∧ chars.getLast? = some '\x7d' then
      ofHyphenated? ((chars.drop 1).take 36)
    else none
  | 45 =>
    if (chars.take 9).map Char.toLower = urnScheme then ofHyphenated? (chars.drop 9) else none
  | _ => none

end Uuid

end Chronicle
