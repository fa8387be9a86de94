/-!
# Decimal integers of a fixed width

Reading goes from left to right and stops at the first flaw: a character that is no digit, or a
digit that takes the number past the bound of its width. A plus sign may stand in front; a
minus sign only where the width has negative numbers.
-/

namespace Chronicle.Text.Integer

/-- Why a text is no integer of the wanted width. -/
inductive Flaw where
  | empty
  | invalidDigit
  | tooLarge
  | tooSmall
  deriving DecidableEq, Repr

/-- The text reported for a flaw. -/
def Flaw.message : Flaw → String
  | .empty => "cannot parse integer from empty string"
  | .invalidDigit => "invalid digit found in string"
  | .tooLarge => "number too large to fit in target type"
  | .tooSmall => "number too small to fit in target type"

/-- The value of a decimal digit. -/
def digit? (c : Char) : Option Nat :=
  if '0' ≤ c ∧ c ≤ '9' then some (c.toNat - '0'.toNat) else none

/-- Adds the digits to the number read so far, which may not pass `bound`. -/
def accumulate (bound : Nat) (beyond : Flaw) : Nat → List Char → Except Flaw Nat
  | acc, [] => .ok acc
  | acc, c :: rest =>
    match digit? c with
    | none => .error .invalidDigit
    | some d =>
      if acc * 10 + d ≤ bound then accumulate bound beyond (acc * 10 + d) rest else .error beyond

/-- Reads a number from 0 to `bound`. -/
def unsigned (bound : Nat) (text : String) : Except Flaw Nat :=
  match text.toList with
  | [] => .error .empty
  | ['+'] => .error .invalidDigit
  | '+' :: digits => accumulate bound .tooLarge 0 digits
  | digits => accumulate bound .tooLarge 0 digits

/-- Reads a number from `-(bound + 1)` to `bound`. -/
def signed (bound : Nat) (text : String) : Except Flaw Int :=
  match text.toList with
  | [] => .error .empty
  | ['+'] => .error .invalidDigit
  | ['-'] => .error .invalidDigit
  | '+' :: digits => (accumulate bound .tooLarge 0 digits).map Int.ofNat
  | '-' :: digits => (accumulate (bound + 1) .tooSmall 0 digits).map fun n => -(n : Int)
  | digits => (accumulate bound .tooLarge 0 digits).map Int.ofNat

end Chronicle.Text.Integer
