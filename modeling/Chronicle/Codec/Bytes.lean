/-!
# Bytes of fixed-width numbers and texts

Numbers stand with their lowest byte first. A text stands as its UTF-8 bytes.
-/

namespace Chronicle

/-- A run of bytes. -/
abbrev Bytes := List UInt8

namespace Bytes

/-- The `width` lowest bytes of a number, the lowest first. -/
def littleEndian : Nat → Nat → Bytes
  | 0, _ => []
  | width + 1, n => UInt8.ofNat n :: littleEndian width (n / 256)

/-- How many numbers have so many bytes. -/
def capacity : Nat → Nat
  | 0 => 1
  | width + 1 => 256 * capacity width

/-- The number that bytes spell, the lowest first. -/
def toNat : Bytes → Nat
  | [] => 0
  | byte :: rest => byte.toNat + 256 * toNat rest

/-- The first `count` bytes and those behind them, if there are so many. -/
def split? : Nat → Bytes → Option (Bytes × Bytes)
  | 0, bytes => some ([], bytes)
  | _ + 1, [] => none
  | count + 1, byte :: bytes =>
    match split? count bytes with
    | some (front, rest) => some (byte :: front, rest)
    | none => none

/-- The number in the first `width` bytes. -/
def number? (width : Nat) (bytes : Bytes) : Option (Nat × Bytes) :=
  (bytes.split? width).map fun (front, rest) => (toNat front, rest)

/-- The bytes of a text. -/
def ofText (text : String) : Bytes := text.toUTF8.toList

/-- The text that bytes encode. -/
def toText? (bytes : Bytes) : Option String := String.fromUTF8? ⟨bytes.toArray⟩

/-! ## Small laws -/

theorem length_littleEndian (width n : Nat) : (littleEndian width n).length = width := by
  induction width generalizing n with
  | zero => rfl
  | succ width ih => simp [littleEndian, ih]

theorem toNat_littleEndian {width n : Nat} (h : n < capacity width) :
    toNat (littleEndian width n) = n := by
  induction width generalizing n with
  | zero => simp only [capacity] at h; simp [littleEndian, toNat]; omega
  | succ width ih =>
    have hq : n / 256 < capacity width := by
      rw [Nat.div_lt_iff_lt_mul (by decide)]
      rwa [capacity, Nat.mul_comm] at h
    simp only [littleEndian, toNat, ih hq, UInt8.toNat_ofNat']
    omega

theorem split?_append (front rest : Bytes) :
    split? front.length (front ++ rest) = some (front, rest) := by
  induction front with
  | nil => rfl
  | cons byte front ih => simp [split?, ih]

theorem number?_append {width n : Nat} (h : n < capacity width) (rest : Bytes) :
    number? width (littleEndian width n ++ rest) = some (n, rest) := by
  have hs := split?_append (littleEndian width n) rest
  rw [length_littleEndian] at hs
  simp [number?, hs, toNat_littleEndian h]

end Bytes

end Chronicle
