import Chronicle.Text.Unprintable

/-!
# Quoted text in messages

A text inside a message stands between double quotes, with a backslash before a quote or a
backslash, short forms for NUL, tab, line feed and carriage return, and the code point in
braces for every other character that would not show.
-/

namespace Chronicle.Text

/-- The lower-case hexadecimal digits of a number, without leading zeros. -/
def hexDigits (n : Nat) : List Char := Nat.toDigits 16 n

/-- One character as it stands between the quotes. -/
def quotedChar (c : Char) : List Char :=
  match c.toNat with
  | 0x00 => ['\\', '0']
  | 0x09 => ['\\', 't']
  | 0x0a => ['\\', 'n']
  | 0x0d => ['\\', 'r']
  | 0x22 => ['\\', c]
  | 0x5c => ['\\', c]
  | n => if isUnprintable c then ['\\', 'u', '\x7b'] ++ hexDigits n ++ ['\x7d'] else [c]

/-- A text between double quotes. -/
def quoted (text : String) : String :=
  String.ofList ('\x22' :: text.toList.flatMap quotedChar ++ ['\x22'])

end Chronicle.Text
