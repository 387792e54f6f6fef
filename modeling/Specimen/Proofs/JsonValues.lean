import Specimen.Json.Reader
import Specimen.Proofs.JsonLiterals
import Specimen.Proofs.RangeDraws
import Specimen.Proofs.ScaledFloats

/-!
# Values read back from JSON

Each value is written as one token that shows its kind, and is read back from it
(`exists_scalarValue?`). An integer and a text stay the same. A finite float has a fraction or an
exponent, so it is read as a float, from all the digits that are written for it (`readBack?`).
-/

namespace Specimen

namespace Json

open Binary64 (magnitudeBits infinityBits)

/-! ## Floats -/

/-- The decimal that a float is written as. -/
def decimalOf (x : Float) : Decimal :=
  Decimal.shortest .even (magnitudeBits x)

/-- The float that the written digits of a float are read as. -/
def readBack? (x : Float) : Option Float :=
  let d := withWrittenDigits (decimalOf x)
  (Literal.scaled? d.coefficient d.exponent).map fun y => if Binary64.isNegative x then -y else y

/-- The literal that a float is written as. -/
def Literal.ofFloat (x : Float) : Literal :=
  .ofDecimal (Binary64.isNegative x) (decimalOf x)

section Finite

variable {x : Float} (h : x.isFinite = true)

include h

theorem coefficient_decimalOf_le : (decimalOf x).coefficient ≤ 10 ^ 17 :=
  Decimal.coefficient_shortest_le .even (Binary64.isFinite_iff.mp h)

/-- Only zero has a coefficient of zero, and its exponent is zero too. -/
theorem decimalOf_zero_or :
    decimalOf x = ⟨0, 0⟩ ∨
      ((decimalOf x).coefficient ≠ 0 ∧ -400 ≤ (decimalOf x).exponent ∧
        (decimalOf x).exponent ≤ 400) := by
  have hlt := Binary64.isFinite_iff.mp h
  have hbits := Decimal.nearestBits_shortest .even hlt.le
  by_cases hzero : magnitudeBits x = 0
  · left
    rw [decimalOf, hzero]
    rfl
  · right
    rw [← decimalOf] at hbits
    have hne : (decimalOf x).nearestBits ≠ 0 := by rwa [hbits]
    have hfinite : (decimalOf x).nearestBits < infinityBits := by rwa [hbits]
    exact ⟨Decimal.coefficient_ne_zero hne,
      Decimal.exponent_between hne hfinite (coefficient_decimalOf_le h)⟩

theorem writes_ofFloat :
    Literal.Writes (Literal.ofFloat x) (FloatLayout.json.decimalText (decimalOf x))
      (withWrittenDigits (decimalOf x)) := by
  refine Literal.writes_ofDecimal _ fun hzero => ?_
  rcases decimalOf_zero_or h with heq | ⟨hne, -⟩
  · rw [heq]
  · exact absurd hzero hne

theorem floatText_eq : floatText x = (Literal.ofFloat x).text := by
  have hlt := Binary64.isFinite_iff.mp h
  have hbody := (writes_ofFloat h).body_eq
  rw [floatText, if_pos h, FloatLayout.text, Binary64.isNaN_eq_false_of_isFinite h, Literal.text,
    hbody, Literal.ofFloat, Literal.isNegative_ofDecimal]
  simp only [Bool.false_eq_true, if_false, if_neg hlt.ne]
  rfl

theorem exists_scaled?_decimalOf :
    ∃ y, Literal.scaled? (withWrittenDigits (decimalOf x)).coefficient
      (withWrittenDigits (decimalOf x)).exponent = some y := by
  have hlt := Binary64.isFinite_iff.mp h
  unfold withWrittenDigits
  split
  · exact exists_scaled?_negSucc _ 0
  · rename_i hwhole
    rcases decimalOf_zero_or h with heq | ⟨hne, -⟩
    · rw [heq] at hwhole
      exact absurd ⟨Or.inl rfl, le_refl _⟩ hwhole
    · refine exists_scaled? hne (coefficient_decimalOf_le h) ?_ (shortest_ne hlt)
      rwa [decimalOf, Decimal.nearestBits_shortest .even hlt.le]

/-- A finite float is always read back as a float, from the digits that are written for it. -/
theorem exists_value?_ofFloat :
    ∃ y, readBack? x = some y ∧ (Literal.ofFloat x).value? = some (.float y) := by
  have hwrites := writes_ofFloat h
  have hcoefficient := coefficient_decimalOf_le h
  have hdigits : (Literal.ofFloat x).significand < UInt64.size := by
    rw [hwrites.significand_eq]
    exact lt_of_le_of_lt (coefficient_withWrittenDigits_le hcoefficient) (by decide)
  have hexponent : ((Literal.ofFloat x).exponent.getD 0).natAbs ≤ Literal.largestExponent := by
    have hleading : (leadingExponent (decimalOf x)).natAbs ≤ 500 := by
      rcases decimalOf_zero_or h with heq | ⟨-, hlo, hhi⟩
      · rw [heq]
        decide
      · exact natAbs_leadingExponent_le hcoefficient hlo hhi
    have hlargest : Literal.largestExponent = 2147483647 := rfl
    rcases Literal.exponent_ofDecimal (Binary64.isNegative x) (decimalOf x) with hnone | hsome
    · rw [Literal.ofFloat, hnone]
      exact Nat.zero_le _
    · rw [Literal.ofFloat, hsome, Option.getD_some]
      omega
  obtain ⟨y, hy⟩ := exists_scaled?_decimalOf h
  have hvalue := Literal.value?_eq hwrites.wellFormed hwrites.isFloat hdigits hexponent
  rw [hwrites.significand_eq, hwrites.scale_eq, hy, Literal.ofFloat, Literal.isNegative_ofDecimal]
    at hvalue
  exact ⟨_, by rw [readBack?, hy, Option.map_some], hvalue⟩

end Finite

end Json

/-! ## Values -/

/-- Whether a value is written as itself: a float that is not finite is not. -/
def Value.IsFinite : Value → Prop
  | .float x => x.isFinite = true
  | .int _ => True
  | .text _ => True

/-- Whether a value is what another one is read back as. An integer and a text stay the same, and a
float stays a float, the one that its digits are read as. -/
inductive Value.ReadsBack : Value → Value → Prop where
  | int (n : Int64) : ReadsBack (.int n) (.int n)
  | float {x y : Float} (h : Json.readBack? x = some y) : ReadsBack (.float x) (.float y)
  | text (s : String) : ReadsBack (.text s) (.text s)

namespace Json

def valueToken : Value → Token
  | .int n => .number (.ofInt n.toInt)
  | .float x => .number (.ofFloat x)
  | .text s => .string (units s)

theorem spells_valueText {v : Value} (h : v.IsFinite) : Spells (valueText v) [valueToken v] := by
  cases v with
  | int n =>
    have hn := spells_literal (Literal.wellFormed_ofInt n.toInt)
    rwa [Literal.text_ofInt] at hn
  | float x =>
    have hx := spells_literal (writes_ofFloat h).wellFormed
    rwa [← floatText_eq h] at hx
  | text s => exact spells_quoted s

/-- An integer of 64 bits with sign is read as itself, whichever way its size is kept. -/
theorem scalarValue?_ofInt (n : Int64) :
    scalarValue? (.number (.ofInt n.toInt)) = some (.int n) := by
  rw [scalarValue?]
  by_cases hn : 0 ≤ n.toInt
  · have hmax := n.toInt_lt
    have hword := Draw.toNat_toUInt64 n
    rw [Int.emod_eq_of_lt hn (by rw [UInt64.size]; omega)] at hword
    have hin : (n.toUInt64.toNat : Int) ≤ Int64.maxValue.toInt := by
      have : Int64.maxValue.toInt = 2 ^ 63 - 1 := rfl
      omega
    rw [← hword, Literal.value?_natural, Option.map_some, numberValue, if_pos hin]
    rfl
  · rw [Literal.value?_negative (by omega)]
    rfl

theorem exists_scalarValue? {v : Value} (h : v.IsFinite) :
    ∃ w, scalarValue? (valueToken v) = some w ∧ v.ReadsBack w := by
  cases v with
  | int n => exact ⟨.int n, scalarValue?_ofInt n, .int n⟩
  | float x =>
    obtain ⟨y, hback, hvalue⟩ := exists_value?_ofFloat h
    refine ⟨.float y, ?_, .float hback⟩
    rw [valueToken, scalarValue?, hvalue]
    rfl
  | text s =>
    refine ⟨.text s, ?_, .text s⟩
    rw [valueToken, scalarValue?, characters?_units]
    simp

end Json

end Specimen
