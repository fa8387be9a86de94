/-!
# Blank characters

The characters with the white-space property: the five controls from tab to carriage return, the
space, and the separators of the wider planes.
-/

namespace Chronicle.Text

/-- Whether a character has the white-space property. -/
def isBlank (c : Char) : Bool :=
  let n := c.toNat
  (0x09 ≤ n && n ≤ 0x0d) || n == 0x20 || n == 0x85 || n == 0xa0 || n == 0x1680 ||
    (0x2000 ≤ n && n ≤ 0x200a) || n == 0x2028 || n == 0x2029 || n == 0x202f || n == 0x205f ||
    n == 0x3000

/-- A text without the blanks in front. -/
def dropBlanks (text : List Char) : List Char := text.dropWhile isBlank

end Chronicle.Text
