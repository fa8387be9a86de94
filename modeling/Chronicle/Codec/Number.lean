import Chronicle.Codec.Json

/-!
# Number literals as doubles

A literal is read in two steps. Its leading digits, as many as fit 64 bits, form a significand;
the double nearest to the significand is then multiplied or divided by a power of ten. So the
result is not always the double nearest to the literal. Digits of the whole part that no longer
fit raise the power; those of the fraction are dropped.
-/

namespace Chronicle.Json.Number

/-- The digits of a number, the highest first. -/
def digitsOf (n : Nat) : List Nat :=
  if n < 10 then [n] else digitsOf (n / 10) ++ [n % 10]
termination_by n
decreasing_by omega

/-- Adds digits to a significand while it fits 64 bits; also how many digits are left. -/
def fill (significand : Nat) : List Nat → Nat × Nat
  | [] => (significand, 0)
  | d :: ds =>
    if significand * 10 + d < 0x10000000000000000 then fill (significand * 10 + d) ds
    else (significand, ds.length + 1)

/-- The significand of a literal and the power of ten it is to be scaled by. -/
def parts (n : Number) : Nat × Int :=
  let (whole, beyond) := fill 0 (digitsOf n.whole)
  let (significand, dropped) := fill whole n.fraction
  (significand, beyond - (n.fraction.length - dropped : Nat) + n.exponent.getD 0)

/-- The double nearest to a power of ten. -/
def powerOfTen (k : Nat) : Float := Float.ofScientific 1 false k

/-- Multiplies or divides a double by a power of ten. Powers that no double holds take one step
for every 308; there is no result above the largest double. -/
def scale : Nat → Float → Int → Option Float
  | 0, f, _ => some f
  | steps + 1, f, exponent =>
    if exponent.natAbs ≤ 308 then
      if 0 ≤ exponent then
        let product := f * powerOfTen exponent.natAbs
        if product.isInf then none else some product
      else some (f / powerOfTen exponent.natAbs)
    else if f == 0 then some f
    else if 0 ≤ exponent then none
    else scale steps (f / powerOfTen 308) (exponent + 308)

/-- The double that a literal stands for. -/
def toFloat? (n : Number) : Option Float :=
  let (significand, exponent) := n.parts
  (scale (exponent.natAbs / 308 + 1) (Float.ofScientific significand false 0) exponent).map
    fun f => if n.negative then -f else f

end Chronicle.Json.Number
