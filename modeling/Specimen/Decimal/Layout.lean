import Specimen.Decimal.Shortest
import Specimen.Numeral

/-!
# Floats as text

A float is written with the digits of its shortest decimal, positionally or in scientific form. What
differs between output formats is one `FloatLayout`.
-/

namespace Specimen

/-- How a format writes a float. -/
structure FloatLayout where
  /-- Which of two equally near shortest decimals is written. -/
  tie : Tie
  /-- Whether a number whose first digit stands at this power of ten is written positionally. -/
  positional : Int → Bool
  /-- What follows a positional number that has no fraction. -/
  wholeSuffix : List Char
  /-- What stands between the digits and a non-negative exponent. -/
  exponentMark : List Char
  notANumber : List Char
  infinity : List Char

namespace FloatLayout

/-- The digits of a coefficient with the point `-exponent` digits from the right. -/
def positionalText (layout : FloatLayout) (d : Decimal) : List Char :=
  let ds := Numeral.ofNat d.coefficient
  match d.exponent with
  | .ofNat k => ds ++ List.replicate k '0' ++ layout.wholeSuffix
  | .negSucc k =>
    if k + 1 < ds.length then
      ds.take (ds.length - (k + 1)) ++ '.' :: ds.drop (ds.length - (k + 1))
    else
      '0' :: '.' :: List.replicate (k + 1 - ds.length) '0' ++ ds

/-- The first digit, the others after a point, and the power of ten of the first digit. -/
def scientificText (layout : FloatLayout) (d : Decimal) (power : Int) : List Char :=
  let digits := match Numeral.ofNat d.coefficient with
    | [] => []
    | [c] => [c]
    | c :: cs => c :: '.' :: cs
  let mark := if power < 0 then ['e'] else layout.exponentMark
  digits ++ mark ++ Numeral.ofInt power

/-- A decimal in the form that the layout chooses for its size. -/
def decimalText (layout : FloatLayout) (d : Decimal) : List Char :=
  let power : Int := (Numeral.ofNat d.coefficient).length - 1 + d.exponent
  if d.coefficient = 0 ∨ layout.positional power then layout.positionalText d
  else layout.scientificText d power

/-- A float as text. -/
def text (layout : FloatLayout) (x : Float) : List Char :=
  if x.isNaN then layout.notANumber
  else
    let bits := Binary64.magnitudeBits x
    let body :=
      if bits = Binary64.infinityBits then layout.infinity
      else layout.decimalText (Decimal.shortest layout.tie bits)
    if Binary64.isNegative x then '-' :: body else body

end FloatLayout

/-- The layout of floats in messages, type strings and displayed values: positional at any size,
without a fraction for whole numbers, and of two equally near shortest decimals the larger. -/
def FloatLayout.display : FloatLayout where
  tie := .up
  positional := fun _ => true
  wholeSuffix := []
  exponentMark := ['e']
  notANumber := "NaN".toList
  infinity := "inf".toList

/-- A float as it is displayed. -/
def displayFloat (x : Float) : List Char :=
  FloatLayout.display.text x

end Specimen
