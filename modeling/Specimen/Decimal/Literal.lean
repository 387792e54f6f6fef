import Specimen.Decimal.Basic
import Specimen.Numeral
import Specimen.Text.Cut

/-!
# Decimal literals

A literal is a run of digits with an optional point and an optional exponent: `12`, `1.`, `.5`,
`0.25`, `2.5E-1`. At least one digit stands beside the point, and an exponent has digits of its own.
-/

namespace Specimen.Decimal

/-- Whether a character opens the exponent of a literal. -/
def isExponentMark (c : Char) : Bool :=
  c == 'e' || c == 'E'

/-- The exponent after its mark: a numeral with an optional sign. -/
def readExponent? : List Char → Option Int
  | '+' :: cs => (Numeral.read? cs).map Int.ofNat
  | '-' :: cs => (Numeral.read? cs).map fun n => -(n : Int)
  | cs => (Numeral.read? cs).map Int.ofNat

/-- The digits with an optional point among them, as coefficient and number of decimal places. -/
def readMantissa? (cs : List Char) : Option (Nat × Nat) :=
  let (whole, places) := (Text.cut? '.' cs).getD (cs, [])
  if Numeral.isNumeral (whole ++ places) then
    some (Numeral.value (whole ++ places), places.length)
  else none

/-- The number a text denotes, if it is a literal without a sign. -/
def read? (cs : List Char) : Option Decimal := do
  let mantissa := cs.takeWhile fun c => !isExponentMark c
  let (coefficient, places) ← readMantissa? mantissa
  match cs.dropWhile fun c => !isExponentMark c with
  | [] => some ⟨coefficient, -(places : Int)⟩
  | _ :: tail => do
    let power ← readExponent? tail
    some ⟨coefficient, power - places⟩

/-- The float a literal with an optional sign denotes. -/
def readFloat? : List Char → Option Float
  | '-' :: cs => (read? cs).map fun d => -d.toFloat
  | '+' :: cs => (read? cs).map toFloat
  | cs => (read? cs).map toFloat

end Specimen.Decimal
