import Specimen.Decimal.Layout

/-!
# JSON numbers

A number that is written without fraction and exponent and fits into 64 bits is an integer; every
other number is a float. The float is computed from the first digits, as many as fit into 64 bits,
by one multiplication or division with a power of ten, which may miss the nearest float by a unit in
the last place. Written, a float always has a fraction or an exponent, so it is read back as a
float.
-/

namespace Specimen

/-- The layout of floats in JSON. -/
def FloatLayout.json : FloatLayout where
  tie := .even
  positional := fun power => -5 ≤ power && power < 16
  wholeSuffix := ".0".toList
  exponentMark := "e+".toList
  notANumber := "null".toList
  infinity := "null".toList

namespace Json

/-- A number. -/
inductive Number where
  /-- An integer of 64 bits without a minus sign. -/
  | natural (n : UInt64)
  /-- An integer below zero. -/
  | negative (n : Int64)
  | float (x : Float)
  deriving DecidableEq

/-- A number as it is written, split into its parts. -/
structure Literal where
  isNegative : Bool
  whole : List Char
  /-- The digits after the point, none if there is no point. -/
  fraction : List Char
  /-- The exponent, with its sign. -/
  exponent : Option Int
  deriving DecidableEq

namespace Literal

/-- The number of digits that a run takes into a significand of 64 bits, with the significand. The
first digit that does not fit ends it. -/
def takeDigits (significand : Nat) : List Char → Nat × Nat
  | [] => (significand, 0)
  | c :: cs =>
    let next := significand * 10 + (c.toNat - '0'.toNat)
    if UInt64.size ≤ next then (significand, 0)
    else
      let (final, taken) := takeDigits next cs
      (final, taken + 1)

/-- The largest power of ten that is a float. -/
def largestPower : Nat := 308

/-- The float `10 ^ k`. -/
def powerOfTen (k : Nat) : Float :=
  Decimal.toFloat ⟨1, k⟩

/-- The float `significand · 10 ^ exponent` by few floating-point operations; none if it is beyond
every float. -/
def scaled? (significand : Nat) (exponent : Int) : Option Float :=
  let x := Binary64.ofNat significand
  match exponent with
  | .ofNat k =>
    if k ≤ largestPower then
      let y := x * powerOfTen k
      if y.isInf then none else some y
    else if significand = 0 then some x
    else none
  | .negSucc k =>
    if k + 1 ≤ largestPower then some (x / powerOfTen (k + 1))
    else if k + 1 ≤ 2 * largestPower then
      some (x / powerOfTen largestPower / powerOfTen (k + 1 - largestPower))
    else some 0

/-- The largest exponent that is told from an endless one. -/
def largestExponent : Nat := 2147483647

/-- The magnitude of a float with a significand, decimal places and a written exponent. -/
def magnitude? (significand : Nat) (shift : Int) (exponent : Int) : Option Float :=
  if largestExponent < exponent.natAbs then
    if significand ≠ 0 ∧ 0 < exponent then none else some 0
  else scaled? significand (shift + exponent)

/-- The number that a literal stands for; none if it is beyond every float. -/
def value? (l : Literal) : Option Number :=
  let (whole, taken) := takeDigits 0 l.whole
  let fits := taken == l.whole.length
  if fits ∧ l.fraction = [] ∧ l.exponent = none then
    if l.isNegative = false then some (.natural (UInt64.ofNat whole))
    else if whole = 0 ∨ Int64.maxValue.toInt + 1 < whole then some (.float (-Binary64.ofNat whole))
    else some (.negative (Int64.ofInt (-whole)))
  else do
    let (significand, places) := takeDigits whole l.fraction
    let shift : Int := (l.whole.length - taken : Nat) - (places : Int)
    let x ← magnitude? significand shift (l.exponent.getD 0)
    some (.float (if l.isNegative then -x else x))

end Literal

/-- The digits at the head of a text and the rest. -/
def scanDigits (cs : List Char) : List Char × List Char :=
  (cs.takeWhile Char.isDigit, cs.dropWhile Char.isDigit)

/-- The digits of an exponent, with a sign read before, and the rest. -/
def scanPower (sign : Int) (cs : List Char) : Option (Int × List Char) :=
  let (digits, rest) := scanDigits cs
  if digits = [] then none else some (sign * (Nat.ofDigitChars 10 digits 0 : Nat), rest)

/-- An exponent after its mark and the rest. -/
def scanExponent : List Char → Option (Int × List Char)
  | '+' :: cs => scanPower 1 cs
  | '-' :: cs => scanPower (-1) cs
  | cs => scanPower 1 cs

/-- The digits after a point, if there is one, and the rest. -/
def scanFraction : List Char → Option (List Char × List Char)
  | '.' :: cs =>
    let (digits, rest) := scanDigits cs
    if digits = [] then none else some (digits, rest)
  | cs => some ([], cs)

/-- The exponent, if there is one, and the rest. -/
def scanOptionalExponent : List Char → Option (Option Int × List Char)
  | 'e' :: cs => (scanExponent cs).map fun (n, rest) => (some n, rest)
  | 'E' :: cs => (scanExponent cs).map fun (n, rest) => (some n, rest)
  | cs => some (none, cs)

/-- A number without its sign and the rest. A zero is the only digit before the point if it is the
first. -/
def scanNumber (isNegative : Bool) (cs : List Char) : Option (Literal × List Char) := do
  let (whole, rest) := scanDigits cs
  if whole = [] ∨ (whole.head? = some '0' ∧ whole ≠ ['0']) then none
  else
    let (fraction, rest) ← scanFraction rest
    let (exponent, rest) ← scanOptionalExponent rest
    some (⟨isNegative, whole, fraction, exponent⟩, rest)

/-! ## The rest is shorter than the text -/

theorem length_scanDigits (cs : List Char) :
    (scanDigits cs).1.length + (scanDigits cs).2.length = cs.length := by
  rw [← List.length_append]
  exact congrArg List.length List.takeWhile_append_dropWhile

@[grind →]
theorem length_scanPower {sign n : Int} {cs rest : List Char}
    (h : scanPower sign cs = some (n, rest)) : rest.length ≤ cs.length := by
  have := length_scanDigits cs
  simp only [scanPower] at h
  split at h
  · simp at h
  · simp only [Option.some.injEq, Prod.mk.injEq] at h
    rw [← h.2]
    omega

@[grind →]
theorem length_scanExponent {cs rest : List Char} {n : Int}
    (h : scanExponent cs = some (n, rest)) : rest.length ≤ cs.length := by
  unfold scanExponent at h
  split at h <;> grind

@[grind →]
theorem length_scanFraction {cs digits rest : List Char}
    (h : scanFraction cs = some (digits, rest)) : rest.length ≤ cs.length := by
  unfold scanFraction at h
  split at h
  · rename_i tail
    have := length_scanDigits tail
    simp only at h
    split at h
    · simp at h
    · simp only [Option.some.injEq, Prod.mk.injEq] at h
      rw [← h.2]
      simp only [List.length_cons]
      omega
  · simp only [Option.some.injEq, Prod.mk.injEq] at h
    simp [h.2]

@[grind →]
theorem length_scanOptionalExponent {cs rest : List Char} {n : Option Int}
    (h : scanOptionalExponent cs = some (n, rest)) : rest.length ≤ cs.length := by
  unfold scanOptionalExponent at h
  split at h <;> grind [Option.map_eq_some_iff]

theorem length_scanNumber {isNegative : Bool} {cs rest : List Char} {l : Literal}
    (h : scanNumber isNegative cs = some (l, rest)) : rest.length < cs.length := by
  unfold scanNumber at h
  simp only at h
  split at h
  · simp at h
  · rename_i hwhole
    simp only [Option.bind_eq_bind, Option.bind_eq_some_iff] at h
    obtain ⟨⟨f, r1⟩, hf, ⟨e, r2⟩, he, heq⟩ := h
    have hdigits := length_scanDigits cs
    have hpos : 0 < (scanDigits cs).1.length := by
      rw [List.length_pos_iff]
      exact fun hnil => hwhole (Or.inl hnil)
    grind

end Json

end Specimen
