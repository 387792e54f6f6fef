import Specimen.Binary64

/-!
# Decimal numbers

A non-negative decimal is a coefficient and a power of ten. It denotes a ratio, and the nearest
float to it is the value that a decimal literal stands for.
-/

namespace Specimen

/-- The number `coefficient · 10 ^ exponent`. -/
structure Decimal where
  coefficient : Nat
  exponent : Int
  deriving DecidableEq, Repr

namespace Decimal

/-- The number as numerator and denominator. -/
def ratio (d : Decimal) : Nat × Nat :=
  match d.exponent with
  | .ofNat k => (d.coefficient * Nat.pow 10 k, 1)
  | .negSucc k => (d.coefficient, Nat.pow 10 (k + 1))

/-- Whether the number is larger than every finite float by its exponent alone. -/
def isHuge (d : Decimal) : Bool :=
  d.coefficient ≠ 0 && 400 < d.exponent

/-- Whether the number is below half of the least positive float by its exponent alone: a power of
ten is at least that power of eight. -/
def isTiny (d : Decimal) : Bool :=
  (d.coefficient.log2 : Int) + 1076 ≤ 3 * -d.exponent

/-- The bit pattern of the nearest float. Numbers far out of range are settled by their exponent,
so that no power of ten larger than needed is computed. -/
def nearestBits (d : Decimal) : Nat :=
  if d.coefficient = 0 then 0
  else if d.isHuge then Binary64.infinityBits
  else if d.isTiny then 0
  else Binary64.nearestBits d.ratio.1 d.ratio.2

/-- The float nearest to the number. -/
def toFloat (d : Decimal) : Float :=
  Binary64.ofMagnitude d.nearestBits

end Decimal

end Specimen
