import Chronicle.Calendar
import Chronicle.Text.Blank

/-!
# Points in time

A point in time is a number of seconds since the first of January 1970 and the nanoseconds
beyond them. A leap second keeps the seconds of the second before it and has a billion
nanoseconds more. The written form is that of RFC 3339 in universal time, with no fraction or
one of three, six or nine digits.

Reading is lenient: blanks may stand around the parts, a part may have fewer digits, the date
and the time may be separated by a blank, and any offset from universal time is taken off.
-/

namespace Chronicle

/-- A point in time. -/
structure Timestamp where
  seconds : Int
  nanos : Nat
  deriving DecidableEq, Repr

namespace Timestamp

/-- The nanoseconds since the first of January 1970. -/
def toNanos (t : Timestamp) : Int := t.seconds * 1000000000 + t.nanos

/-- The point so many nanoseconds after the first of January 1970. -/
def ofNanos (nanos : Int) : Timestamp := ⟨nanos / 1000000000, (nanos % 1000000000).toNat⟩

/-- The point a number of milliseconds later, or earlier where the number is negative. -/
def addMillis (t : Timestamp) (millis : Int) : Timestamp := ofNanos (t.toNanos + millis * 1000000)

/-- The second of its day on which a point in time falls. -/
def secondOfDay (t : Timestamp) : Int := t.seconds % 86400

/-- Whether a point in time lies in a leap second. -/
def isLeap (t : Timestamp) : Bool := 1000000000 ≤ t.nanos

/-- The nanoseconds from an earlier point in time to this one. A leap second at the earlier time
of day is over at the later one, and counts. -/
def nanosSince (t earlier : Timestamp) : Int :=
  let leap : Int :=
    if earlier.secondOfDay < t.secondOfDay ∧ earlier.isLeap then 1000000000
    else if t.secondOfDay < earlier.secondOfDay ∧ t.isLeap then -1000000000
    else 0
  t.toNanos - earlier.toNanos + leap

/-- The first second of the year 2025. -/
def year2025 : Timestamp := ⟨1735689600, 0⟩

instance : Inhabited Timestamp := ⟨⟨0, 0⟩⟩

/-! ## Writing -/

/-- A number in at least `width` digits. -/
def padded (width n : Nat) : List Char :=
  let digits := (toString n).toList
  List.replicate (width - digits.length) '0' ++ digits

/-- A year, with a sign where it does not fit four digits. -/
def yearText (year : Int) : List Char :=
  if 0 ≤ year ∧ year ≤ 9999 then padded 4 year.toNat
  else if year < 0 then '-' :: padded 4 year.natAbs
  else '+' :: padded 4 year.natAbs

/-- The fraction of a second, in the fewest of 0, 3, 6 and 9 digits that hold it. -/
def fractionText (nanos : Nat) : List Char :=
  if nanos = 0 then []
  else if nanos % 1000000 = 0 then '.' :: padded 3 (nanos / 1000000)
  else if nanos % 1000 = 0 then '.' :: padded 6 (nanos / 1000)
  else '.' :: padded 9 nanos

/-- The RFC 3339 text of a point in time. -/
def toText (t : Timestamp) : String :=
  let date := Calendar.Date.ofDays (t.seconds / 86400)
  let second := (t.seconds % 86400).toNat
  let leap := t.nanos / 1000000000
  String.ofList <|
    yearText date.year ++ '-' :: padded 2 date.month ++ '-' :: padded 2 date.day ++
      'T' :: padded 2 (second / 3600) ++ ':' :: padded 2 (second / 60 % 60) ++
      ':' :: padded 2 (second % 60 + leap) ++ fractionText (t.nanos % 1000000000) ++ ['Z']

/-! ## Reading -/

/-- The value of a decimal digit. -/
def digitValue? (c : Char) : Option Nat :=
  if '0' ≤ c ∧ c ≤ '9' then some (c.toNat - '0'.toNat) else none

/-- At most `most` digits in front of a text and the text behind them. -/
def takeDigits : Nat → List Char → List Nat × List Char
  | 0, text => ([], text)
  | _, [] => ([], [])
  | most + 1, c :: rest =>
    match digitValue? c with
    | some d => let (digits, tail) := takeDigits most rest; (d :: digits, tail)
    | none => ([], c :: rest)

/-- The number that digits spell. -/
def ofDigits (digits : List Nat) : Nat := digits.foldl (fun acc d => acc * 10 + d) 0

/-- A number of one to `most` digits, behind any blanks. -/
def number? (most : Nat) (text : List Char) : Option (Nat × List Char) :=
  match takeDigits most (Text.dropBlanks text) with
  | ([], _) => none
  | (digits, rest) => some (ofDigits digits, rest)

/-- A year: four digits at most, or any number of them behind a sign. -/
def year? (text : List Char) : Option (Int × List Char) :=
  match Text.dropBlanks text with
  | '-' :: rest =>
    match takeDigits rest.length rest with
    | ([], _) => none
    | (digits, tail) => some (-(ofDigits digits : Int), tail)
  | '+' :: rest =>
    match takeDigits rest.length rest with
    | ([], _) => none
    | (digits, tail) => some (ofDigits digits, tail)
  | rest => (number? 4 rest).map fun (n, tail) => ((n : Int), tail)

/-- The text behind an expected character, blanks before it skipped. -/
def expect? (c : Char) (text : List Char) : Option (List Char) :=
  match Text.dropBlanks text with
  | first :: rest => if first = c then some rest else none
  | [] => none

/-- The nanoseconds of an optional fraction; digits beyond the ninth are dropped. -/
def fraction? : List Char → Option (Nat × List Char)
  | '.' :: rest =>
    match takeDigits 9 rest with
    | ([], _) => none
    | (digits, tail) =>
      some (ofDigits (digits ++ List.replicate (9 - digits.length) 0),
        tail.dropWhile fun c => (digitValue? c).isSome)
  | text => some (0, text)

/-- The seconds that an offset from universal time stands for. -/
def offset? (text : List Char) : Option (Int × List Char) :=
  match text with
  | 'Z' :: rest | 'z' :: rest => some (0, rest)
  | sign :: h₁ :: h₂ :: rest => do
    if (String.ofList [sign, h₁, h₂]).toLower = "utc" then return (0, rest)
    let negative ← match sign with
      | '+' => some false
      | '-' => some true
      | '\u2212' => some true
      | _ => none
    let hours := (← digitValue? h₁) * 10 + (← digitValue? h₂)
    match rest.dropWhile fun c => c == ':' || Text.isBlank c with
    | m₁ :: m₂ :: tail =>
      let tens ← digitValue? m₁
      let ones ← digitValue? m₂
      if tens ≤ 5 then
        let seconds : Int := ((hours * 60 + tens * 10 + ones) * 60 : Nat)
        return (if negative then -seconds else seconds, tail)
      else none
    | _ => none
  | _ => none

/-- The first second that has a calendar day. -/
def firstSecond : Int := (Calendar.Date.toDays ⟨-262143, 1, 1⟩) * 86400

/-- The last second that has a calendar day. -/
def lastSecond : Int := (Calendar.Date.toDays ⟨262142, 12, 31⟩) * 86400 + 86399

/-- Whether a second falls on a calendar day. -/
def inCalendar (second : Int) : Bool := firstSecond ≤ second && second ≤ lastSecond

/-- Reads a point in time. -/
def ofText? (text : String) : Option Timestamp := do
  let (year, rest) ← year? text.toList
  let (month, rest) ← number? 2 (← expect? '-' rest)
  let (day, rest) ← number? 2 (← expect? '-' rest)
  let rest ← match rest with
    | 'T' :: rest | 't' :: rest | ' ' :: rest => some rest
    | _ => none
  let (hour, rest) ← number? 2 rest
  let (minute, rest) ← number? 2 (← expect? ':' rest)
  let (second, rest) ← number? 2 (← expect? ':' rest)
  let (nanos, rest) ← fraction? rest
  let (offset, rest) ← offset? (Text.dropBlanks rest)
  let date : Calendar.Date := ⟨year, month, day⟩
  if Text.dropBlanks rest = [] ∧ date.isValid ∧ hour ≤ 23 ∧ minute ≤ 59 ∧ second ≤ 60 ∧
      offset.natAbs < 86400 then
    let whole : Nat := hour * 3600 + minute * 60 + Nat.min second 59
    let localSecond := date.toDays * 86400 + whole
    let leap := if second = 60 then 1000000000 else 0
    if inCalendar localSecond ∧ inCalendar (localSecond - offset) then
      some ⟨localSecond - offset, nanos + leap⟩
    else none
  else none

end Timestamp

end Chronicle
