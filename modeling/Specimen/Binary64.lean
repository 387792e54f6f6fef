/-!
# Binary64 numbers as ratios

A finite float is `± m · 2 ^ e` for natural numbers `m < 2 ^ 53`. This module reads `m` and `e` off
the bit pattern and, the other way, rounds a ratio of natural numbers to the nearest float, a tie
going to the even mantissa.
-/

namespace Specimen.Binary64

/-- The exponent of the spacing of the subnormal floats. -/
def minExponent : Int := -1074

/-- The bit pattern of positive infinity. -/
def infinityBits : Nat := 0x7FF0000000000000

/-- The bit pattern of the negative zero: the sign bit alone. -/
def signBit : Nat := 0x8000000000000000

/-- The distance of the bit patterns of two floats that differ in the exponent by one: `2 ^ 52`. -/
def exponentStep : Nat := 0x10000000000000

/-- The bit pattern without its sign. -/
def magnitudeBits (x : Float) : Nat :=
  x.toBits.toNat % signBit

/-- Whether the sign bit is set, also for the negative zero. -/
def isNegative (x : Float) : Bool :=
  signBit ≤ x.toBits.toNat

/-- The natural number `m` of a finite magnitude `m · 2 ^ e`. -/
def mantissa (bits : Nat) : Nat :=
  if bits / exponentStep = 0 then bits else exponentStep + bits % exponentStep

/-- The exponent `e` of a finite magnitude `m · 2 ^ e`. -/
def exponent (bits : Nat) : Int :=
  if bits / exponentStep = 0 then minExponent
  else (bits / exponentStep : Nat) - 1 + minExponent

/-- A finite magnitude as numerator and denominator. -/
def ratio (bits : Nat) : Nat × Nat :=
  match exponent bits with
  | .ofNat e => (mantissa bits * Nat.pow 2 e, 1)
  | .negSucc e => (mantissa bits, Nat.pow 2 (e + 1))

/-- The integer nearest to `num / den`; of two equally near ones, the even one. -/
def roundHalfEven (num den : Nat) : Nat :=
  let q := num / den
  let r := num % den
  if 2 * r < den ∨ (2 * r = den ∧ q % 2 = 0) then q else q + 1

/-- Whether `num / (den · 2 ^ e)` is at least `2 ^ 52`. -/
def fillsMantissa (num den : Nat) : Int → Bool
  | .ofNat e => den * Nat.pow 2 e * exponentStep ≤ num
  | .negSucc e => den * exponentStep ≤ num * Nat.pow 2 (e + 1)

/-- The exponent `e` for which `num / (den · 2 ^ e)` lies between `2 ^ 52` and `2 ^ 53`, or the
least exponent if that is larger. -/
def fitExponent (num den : Nat) : Int :=
  let guess : Int := (num.log2 : Int) - den.log2 - 52
  max minExponent (if fillsMantissa num den guess then guess else guess - 1)

/-- The bit pattern of the float nearest to `num / den`. A rounded mantissa of `2 ^ 53` carries into
the exponent by the addition itself. -/
def nearestBits (num den : Nat) : Nat :=
  if num = 0 then 0
  else
    let e := fitExponent num den
    let m := match e with
      | .ofNat k => roundHalfEven num (den * Nat.pow 2 k)
      | .negSucc k => roundHalfEven (num * Nat.pow 2 (k + 1)) den
    min infinityBits ((e - minExponent).toNat * exponentStep + m)

/-- The non-negative float of a bit pattern. -/
def ofMagnitude (bits : Nat) : Float :=
  Float.ofBits (UInt64.ofNat bits)

/-- The float nearest to a natural number. -/
def ofNat (n : Nat) : Float :=
  ofMagnitude (nearestBits n 1)

/-- The float nearest to an integer; zero is positive. -/
def ofInt : Int → Float
  | .ofNat n => ofNat n
  | .negSucc n => -ofNat (n + 1)

end Specimen.Binary64
