import Chronicle.Fault

/-!
# Durations

A span of time is a count of nanoseconds of which the whole seconds fit 64 bits. Its text names
the largest of the units s, ms, µs and ns that it reaches, with the fraction in as few digits as
it needs.
-/

namespace Chronicle

/-- A span of time in nanoseconds. -/
structure Duration where
  nanos : Nat
  nanos_lt : nanos < 0x10000000000000000 * 1000000000
  deriving DecidableEq

namespace Duration

/-- The span of no length. -/
def zero : Duration := ⟨0, by decide⟩

instance : Inhabited Duration := ⟨zero⟩

/-- A span of some nanoseconds, if it is not too long. -/
def ofNanos? (nanos : Nat) : Option Duration :=
  if h : nanos < 0x10000000000000000 * 1000000000 then some ⟨nanos, h⟩ else none

/-- Whole seconds and further nanoseconds, of which a second or more is carried. -/
def ofParts? (seconds : UInt64) (nanos : UInt32) : Option Duration :=
  ofNanos? (seconds.toNat * 1000000000 + nanos.toNat)

/-- A span of milliseconds. -/
def ofMillis (millis : UInt64) : Duration :=
  ⟨millis.toNat * 1000000, by have := millis.toNat_lt; omega⟩

/-- A span of seconds. -/
def ofSeconds (seconds : UInt64) : Duration :=
  ⟨seconds.toNat * 1000000000, by have := seconds.toNat_lt; omega⟩

/-- The whole seconds of a span. -/
def seconds (d : Duration) : Nat := d.nanos / 1000000000

/-- The nanoseconds beyond the whole seconds. -/
def subsecNanos (d : Duration) : Nat := d.nanos % 1000000000

/-- The whole milliseconds of a span. -/
def millis (d : Duration) : Nat := d.nanos / 1000000

/-- The milliseconds that a timer runs where no end of the span can be reckoned: thirty years. -/
def endlessTicks : Nat := 946080000000

/-- The milliseconds that a timer runs for a span: it ticks once a millisecond and has passed the
span after so many ticks. Ends are reckoned in signed 64-bit seconds. -/
def ticks (d : Duration) : Nat :=
  if d.seconds < 0x8000000000000000 then (d.nanos + 999999) / 1000000 else endlessTicks

instance : LE Duration := ⟨fun a b => a.nanos ≤ b.nanos⟩

instance (a b : Duration) : Decidable (a ≤ b) := inferInstanceAs (Decidable (a.nanos ≤ b.nanos))

/-- The shorter of two spans. -/
def min (a b : Duration) : Duration := if a ≤ b then a else b

/-- The sum of two spans, if it is not too long. -/
def checkedAdd (a b : Duration) : Checked Duration :=
  match ofNanos? (a.nanos + b.nanos) with
  | some d => .ok d
  | none => .error .durationSum

/-- Drops the zeros at the end of a list of digits. -/
def dropZeros (digits : List Char) : List Char :=
  (digits.reverse.dropWhile (· == '0')).reverse

/-- A whole part and `places` digits after the point, of which zeros at the end are not
written. -/
def decimalText (whole fraction places : Nat) : String :=
  let digits := (toString fraction).toList
  let padded := List.replicate (places - digits.length) '0' ++ digits
  match dropZeros padded with
  | [] => toString whole
  | shown => toString whole ++ "." ++ String.ofList shown

/-- The text of a span. -/
def toText (d : Duration) : String :=
  if 1000000000 ≤ d.nanos then decimalText d.seconds d.subsecNanos 9 ++ "s"
  else if 1000000 ≤ d.nanos then decimalText d.millis (d.nanos % 1000000) 6 ++ "ms"
  else if 1000 ≤ d.nanos then decimalText (d.nanos / 1000) (d.nanos % 1000) 3 ++ "µs"
  else decimalText d.nanos 0 0 ++ "ns"

end Duration

end Chronicle
