import Specimen.Proofs.JsonTokens

/-!
# The literals of decimals

A literal with a fraction or an exponent is read as a float from its significand and its scale, as
long as the digits fit (`value?_eq`). A decimal is written as such a literal in each of four
layouts: a whole number with its zeros, digits around a point, digits behind zeros, and digits with
an exponent. In all of them the digits are those of the decimal (`writes_ofDecimal`).
-/

namespace Specimen.Json

namespace Literal

/-! ## The number of a literal -/

/-- The number that the digits before and after the point make. -/
def significand (l : Literal) : Nat :=
  Numeral.value (l.whole ++ l.fraction)

/-- The power of ten that the significand is multiplied with. -/
def scale (l : Literal) : Int :=
  l.exponent.getD 0 - l.fraction.length

/-- A literal with a fraction or an exponent is a float of all its digits, if they fit. -/
theorem value?_eq {l : Literal} (h : l.WellFormed)
    (hfloat : ¬ (l.fraction = [] ∧ l.exponent = none)) (hdigits : l.significand < UInt64.size)
    (hexponent : (l.exponent.getD 0).natAbs ≤ largestExponent) :
    l.value? = (scaled? l.significand l.scale).map fun x =>
      .float (if l.isNegative then -x else x) := by
  have hsum := Numeral.value_append l.whole l.fraction
  rw [← significand] at hsum
  have hwhole : takeDigits 0 l.whole = (Numeral.value l.whole, l.whole.length) := by
    have hpos := Nat.le_mul_of_pos_right (Numeral.value l.whole)
      (Nat.pow_pos (n := l.fraction.length) (show 0 < 10 by decide))
    have htaken := takeDigits_eq h.isDigit_whole 0 (by omega)
    rwa [Nat.zero_mul, Nat.zero_add] at htaken
  have hfraction : takeDigits (Numeral.value l.whole) l.fraction =
      (l.significand, l.fraction.length) := by
    rw [hsum]
    exact takeDigits_eq h.isDigit_fraction _ (by omega)
  have hmagnitude : magnitude? l.significand (0 - (l.fraction.length : Int)) (l.exponent.getD 0) =
      scaled? l.significand l.scale := by
    rw [magnitude?, if_neg (by omega), scale]
    congr 1
    omega
  unfold value?
  rw [hwhole]
  simp only [beq_self_eq_true, true_and, if_neg hfloat, hfraction, Nat.sub_self, Nat.cast_zero,
    hmagnitude]
  cases scaled? l.significand l.scale <;> rfl

end Literal

/-! ## The literal of a decimal -/

theorem length_ofNat_le_iff {n k : Nat} (hk : 0 < k) :
    (Numeral.ofNat n).length ≤ k ↔ n < 10 ^ k :=
  Nat.length_toDigits_le_iff (by decide) hk

/-- The power of ten of the first digit. -/
def leadingExponent (d : Decimal) : Int :=
  (Numeral.ofNat d.coefficient).length - 1 + d.exponent

/-- Whether a decimal is written without an exponent. -/
def isPositional (d : Decimal) : Prop :=
  d.coefficient = 0 ∨ FloatLayout.json.positional (leadingExponent d) = true

instance (d : Decimal) : Decidable (isPositional d) :=
  inferInstanceAs (Decidable (_ ∨ _))

/-- The decimal with the digits that are written for it: a whole number that is written without an
exponent gets its zeros and one more after the point. -/
def withWrittenDigits (d : Decimal) : Decimal :=
  if isPositional d ∧ 0 ≤ d.exponent then ⟨d.coefficient * 10 ^ (d.exponent.toNat + 1), -1⟩ else d

namespace Literal

/-- The literal of a decimal that is written without an exponent. -/
def positional (isNegative : Bool) (d : Decimal) : Literal :=
  let ds := Numeral.ofNat d.coefficient
  match d.exponent with
  | .ofNat k => ⟨isNegative, ds ++ List.replicate k '0', ['0'], none⟩
  | .negSucc k =>
    if k + 1 < ds.length then
      ⟨isNegative, ds.take (ds.length - (k + 1)), ds.drop (ds.length - (k + 1)), none⟩
    else ⟨isNegative, ['0'], List.replicate (k + 1 - ds.length) '0' ++ ds, none⟩

/-- The literal of a decimal that is written with an exponent. -/
def scientific (isNegative : Bool) (d : Decimal) : Literal :=
  let ds := Numeral.ofNat d.coefficient
  ⟨isNegative, ds.take 1, ds.drop 1, some (leadingExponent d)⟩

/-- The literal that a decimal is written as. -/
def ofDecimal (isNegative : Bool) (d : Decimal) : Literal :=
  if isPositional d then positional isNegative d else scientific isNegative d

/-- The literal is written as a text after its sign, and its number is that of a decimal digit by
digit. -/
structure Writes (l : Literal) (text : List Char) (d : Decimal) : Prop where
  wellFormed : l.WellFormed
  body_eq : l.body = text
  significand_eq : l.significand = d.coefficient
  scale_eq : l.scale = d.exponent
  isFloat : ¬ (l.fraction = [] ∧ l.exponent = none)

section Writing

variable {ds : List Char} (isNegative : Bool)

theorem isDigit_append {a b : List Char} (ha : ∀ c ∈ a, c.isDigit = true)
    (hb : ∀ c ∈ b, c.isDigit = true) : ∀ c ∈ a ++ b, c.isDigit = true := by
  intro c hc
  rcases List.mem_append.mp hc with h | h
  · exact ha c h
  · exact hb c h

theorem isDigit_zeros (k : Nat) : ∀ c ∈ List.replicate k '0', c.isDigit = true := by
  intro c hc
  rw [List.eq_of_mem_replicate hc]
  rfl

/-- Whole digits with zeros behind them, and a zero after the point. -/
theorem writes_whole (hne : ds ≠ []) (hdigits : ∀ c ∈ ds, c.isDigit = true) (k : Nat)
    (hhead : ds.head? = some '0' → ds = ['0'] ∧ k = 0) :
    Writes ⟨isNegative, ds ++ List.replicate k '0', ['0'], none⟩
      (ds ++ List.replicate k '0' ++ ".0".toList) ⟨Numeral.value ds * 10 ^ (k + 1), -1⟩ where
  wellFormed := {
    whole_ne_nil := by simp [hne]
    isDigit_whole := isDigit_append hdigits (isDigit_zeros k)
    whole_of_head? h := by
      obtain ⟨c, cs, rfl⟩ := List.exists_cons_of_ne_nil hne
      obtain ⟨hds, rfl⟩ := hhead h
      simpa using hds
    isDigit_fraction := isDigit_zeros 1 }
  body_eq := by simp [body, fractionText, exponentText]
  significand_eq := by
    have hzeros : List.replicate k '0' ++ ['0'] = List.replicate (k + 1) '0' :=
      (List.replicate_succ' ..).symm
    rw [significand, List.append_assoc, hzeros, Numeral.value_replicate_zero]
  scale_eq := rfl
  isFloat h := List.cons_ne_nil _ _ h.1

/-- Digits with a point among them. -/
theorem writes_point (hdigits : ∀ c ∈ ds, c.isDigit = true) {k : Nat} (hk : k + 1 < ds.length)
    (hhead : ds.head? = some '0' → ds = ['0']) :
    Writes ⟨isNegative, ds.take (ds.length - (k + 1)), ds.drop (ds.length - (k + 1)), none⟩
      (ds.take (ds.length - (k + 1)) ++ '.' :: ds.drop (ds.length - (k + 1)))
      ⟨Numeral.value ds, .negSucc k⟩ where
  wellFormed := {
    whole_ne_nil := List.ne_nil_of_length_pos (by rw [List.length_take]; omega)
    isDigit_whole c hc := hdigits c (List.mem_of_mem_take hc)
    whole_of_head? h := by
      rw [List.head?_take, if_neg (by omega)] at h
      rw [hhead h] at hk
      exact absurd hk (by simp)
    isDigit_fraction c hc := hdigits c (List.mem_of_mem_drop hc) }
  body_eq := by
    have hne : ds.drop (ds.length - (k + 1)) ≠ [] :=
      List.ne_nil_of_length_pos (by rw [List.length_drop]; omega)
    simp only [body, fractionText, if_neg hne, exponentText, List.append_nil]
  significand_eq := by rw [significand, List.take_append_drop]
  scale_eq := by
    simp only [scale, List.length_drop, Option.getD_none]
    omega
  isFloat h := by
    have hlength := congrArg List.length h.1
    rw [List.length_drop, List.length_nil] at hlength
    omega

/-- Digits behind a zero, a point and more zeros. -/
theorem writes_below_one (hne : ds ≠ []) (hdigits : ∀ c ∈ ds, c.isDigit = true) {k : Nat}
    (hk : ¬ k + 1 < ds.length) :
    Writes ⟨isNegative, ['0'], List.replicate (k + 1 - ds.length) '0' ++ ds, none⟩
      ('0' :: '.' :: List.replicate (k + 1 - ds.length) '0' ++ ds)
      ⟨Numeral.value ds, .negSucc k⟩ where
  wellFormed := {
    whole_ne_nil := List.cons_ne_nil _ _
    isDigit_whole := isDigit_zeros 1
    whole_of_head? _ := rfl
    isDigit_fraction := isDigit_append (isDigit_zeros _) hdigits }
  body_eq := by simp [body, fractionText, exponentText, hne]
  significand_eq := by
    have hzeros : ['0'] ++ List.replicate (k + 1 - ds.length) '0' =
        [] ++ List.replicate (k + 1 - ds.length + 1) '0' := rfl
    rw [significand, ← List.append_assoc, hzeros, Numeral.value_append,
      Numeral.value_replicate_zero]
    simp [Numeral.value]
  scale_eq := by
    simp only [scale, List.length_append, List.length_replicate, Option.getD_none]
    omega
  isFloat h := by simp [hne] at h

/-- The first digit, a point and the other digits, if there are any, and an exponent. -/
theorem writes_scientific (d : Decimal) (power : Int) :
    Writes ⟨isNegative, (Numeral.ofNat d.coefficient).take 1, (Numeral.ofNat d.coefficient).drop 1,
        some power⟩
      (FloatLayout.json.scientificText d power)
      ⟨d.coefficient, power - ((Numeral.ofNat d.coefficient).length - 1)⟩ := by
  have hds := Numeral.digits_ofNat d.coefficient
  have hvalue := hds.value_eq
  obtain ⟨c, cs, hcs⟩ := List.exists_cons_of_ne_nil hds.ne_nil
  have hexponent : exponentText (some power) =
      (if power < 0 then ['e'] else FloatLayout.json.exponentMark) ++ Numeral.ofInt power := by
    cases power with
    | ofNat k => rfl
    | negSucc k =>
      rw [if_pos (Int.negSucc_lt_zero k)]
      rfl
  refine ⟨⟨?_, ?_, ?_, ?_⟩, ?_, ?_, ?_, ?_⟩
  · simp [hcs]
  · exact fun c hc => hds.isDigit c (List.mem_of_mem_take hc)
  · intro h
    simpa [hcs] using h
  · exact fun c hc => hds.isDigit c (List.mem_of_mem_drop hc)
  · unfold FloatLayout.scientificText
    rw [body, hexponent, hcs]
    cases cs <;> simp [fractionText]
  · rw [significand, List.take_append_drop, hvalue]
  · simp only [scale, hcs, List.length_drop, List.length_cons, Option.getD_some]
    omega
  · simp

end Writing

/-- A decimal is written digit by digit, up to its sign. -/
theorem writes_ofDecimal (isNegative : Bool) {d : Decimal}
    (hzero : d.coefficient = 0 → d.exponent = 0) :
    Writes (ofDecimal isNegative d) (FloatLayout.json.decimalText d) (withWrittenDigits d) := by
  obtain ⟨coefficient, exponent⟩ := d
  have hds := Numeral.digits_ofNat coefficient
  have hvalue := hds.value_eq
  have hhead : (Numeral.ofNat coefficient).head? = some '0' →
      Numeral.ofNat coefficient = ['0'] ∧ exponent = 0 := by
    intro h
    obtain rfl : coefficient = 0 := Numeral.eq_zero_of_head? h
    exact ⟨rfl, hzero rfl⟩
  by_cases hpositional : isPositional ⟨coefficient, exponent⟩
  · have htext : FloatLayout.json.decimalText ⟨coefficient, exponent⟩ =
        FloatLayout.json.positionalText ⟨coefficient, exponent⟩ := if_pos hpositional
    rw [ofDecimal, if_pos hpositional, htext]
    cases exponent with
    | ofNat k =>
      have hwhole : withWrittenDigits ⟨coefficient, .ofNat k⟩ =
          ⟨coefficient * 10 ^ (k + 1), -1⟩ := if_pos ⟨hpositional, Int.natCast_nonneg k⟩
      have hwrites := writes_whole isNegative hds.ne_nil hds.isDigit k fun h =>
        ⟨(hhead h).1, by simpa using (hhead h).2⟩
      rw [hvalue] at hwrites
      rw [hwhole]
      exact hwrites
    | negSucc k =>
      have hsame : withWrittenDigits ⟨coefficient, .negSucc k⟩ = ⟨coefficient, .negSucc k⟩ :=
        if_neg fun h => absurd h.2 (by simp)
      rw [hsame]
      unfold positional FloatLayout.positionalText
      dsimp only
      split
      · rename_i hk
        have hwrites := writes_point isNegative hds.isDigit hk fun h => (hhead h).1
        rwa [hvalue] at hwrites
      · rename_i hk
        have hwrites := writes_below_one isNegative hds.ne_nil hds.isDigit hk
        rwa [hvalue] at hwrites
  · have htext : FloatLayout.json.decimalText ⟨coefficient, exponent⟩ =
        FloatLayout.json.scientificText ⟨coefficient, exponent⟩
          (leadingExponent ⟨coefficient, exponent⟩) :=
      if_neg hpositional
    have hsame : withWrittenDigits ⟨coefficient, exponent⟩ = ⟨coefficient, exponent⟩ :=
      if_neg fun h => hpositional h.1
    have hscale : leadingExponent ⟨coefficient, exponent⟩ -
        ((Numeral.ofNat coefficient).length - 1) = exponent := by
      simp only [leadingExponent]
      omega
    have hwrites := writes_scientific isNegative ⟨coefficient, exponent⟩
      (leadingExponent ⟨coefficient, exponent⟩)
    rw [hscale] at hwrites
    rw [ofDecimal, if_neg hpositional, htext, hsame]
    exact hwrites

@[simp]
theorem isNegative_ofDecimal (isNegative : Bool) (d : Decimal) :
    (ofDecimal isNegative d).isNegative = isNegative := by
  unfold ofDecimal positional
  split
  · cases d.exponent with
    | ofNat k => rfl
    | negSucc k =>
      dsimp only
      split <;> rfl
  · rfl

theorem exponent_ofDecimal (isNegative : Bool) (d : Decimal) :
    (ofDecimal isNegative d).exponent = none ∨
      (ofDecimal isNegative d).exponent = some (leadingExponent d) := by
  unfold ofDecimal positional
  split
  · left
    cases d.exponent with
    | ofNat k => rfl
    | negSucc k =>
      dsimp only
      split <;> rfl
  · exact Or.inr rfl

end Literal

/-- The zeros that are written for a whole number do not take it beyond seventeen digits. -/
theorem coefficient_withWrittenDigits_le {d : Decimal} (h : d.coefficient ≤ 10 ^ 17) :
    (withWrittenDigits d).coefficient ≤ 10 ^ 17 := by
  unfold withWrittenDigits
  split
  · rename_i hwhole
    obtain ⟨hzero | hpositional, hexponent⟩ := hwhole
    · rw [hzero, Nat.zero_mul]
      exact Nat.zero_le _
    · have hlength : 0 < (Numeral.ofNat d.coefficient).length :=
        List.length_pos_iff.mpr (Numeral.digits_ofNat _).ne_nil
      have hlt : d.coefficient < 10 ^ (Numeral.ofNat d.coefficient).length :=
        (length_ofNat_le_iff hlength).mp (le_refl _)
      have hpower : (Numeral.ofNat d.coefficient).length + (d.exponent.toNat + 1) ≤ 17 := by
        simp only [FloatLayout.json, Bool.and_eq_true, decide_eq_true_eq, leadingExponent]
          at hpositional
        omega
      calc d.coefficient * 10 ^ (d.exponent.toNat + 1)
          ≤ 10 ^ (Numeral.ofNat d.coefficient).length * 10 ^ (d.exponent.toNat + 1) :=
            Nat.mul_le_mul_right _ hlt.le
        _ = 10 ^ ((Numeral.ofNat d.coefficient).length + (d.exponent.toNat + 1)) :=
            (Nat.pow_add ..).symm
        _ ≤ 10 ^ 17 := Nat.pow_le_pow_right (by decide) hpower
  · exact h

theorem natAbs_leadingExponent_le {d : Decimal} (h : d.coefficient ≤ 10 ^ 17)
    (hlo : -400 ≤ d.exponent) (hhi : d.exponent ≤ 400) : (leadingExponent d).natAbs ≤ 500 := by
  have hlength : (Numeral.ofNat d.coefficient).length ≤ 18 :=
    (length_ofNat_le_iff (by decide)).mpr (lt_of_le_of_lt h (by decide))
  unfold leadingExponent
  omega

end Specimen.Json
