import Specimen.Generate.Value
import Specimen.Proofs.Arithmetic
import Specimen.Proofs.CanonicalText

/-!
# Floats drawn from a range

A float is drawn as a fraction of the distance of the bounds, added to the lower one, with three
roundings. The fraction leaves enough room below one for the product to stay at or below the exact
distance, also where the distance is rounded up (`product_le_distance`), so the sum does not exceed
the upper bound. It may round to it: the range is closed above, and whether it can be reached is
decided by the greatest word (`parsed_float_between`).
-/

namespace Specimen

open Binary64

namespace Draw

/-- The float that a word gives for a range. -/
def floatOfWord (range : FloatRange) (w : UInt64) : Float :=
  fraction w * (range.max - range.min) + range.min

/-! ## The fraction -/

theorem number_two_pow_52 : number 4503599627370496 = 2 ^ 52 := by
  have hbits : magnitudeBits 4503599627370496 = 1074 * exponentStep + exponentStep := by decide
  have hsign : isNegative 4503599627370496 = false := by decide
  rw [number, hsign, hbits, value_steps_add (by decide) (Or.inr le_rfl), exponentStep_eq]
  norm_num [minExponent]

/-- The top 52 bits of a word are divided without rounding. -/
theorem number_fraction (w : UInt64) : (fraction w).isFinite = true ∧
    number (fraction w) = (w.toNat / 2 ^ 12 : Nat) / 2 ^ 52 := by
  have hshift : (w >>> 12).toNat = w.toNat / 2 ^ 12 := by
    rw [UInt64.toNat_shiftRight, Nat.shiftRight_eq_div_pow]
    rfl
  have hlt : w.toNat / 2 ^ 12 < 2 * exponentStep := by
    have := w.toNat_lt
    rw [exponentStep]
    omega
  have hword := rounds_toFloat (w >>> 12)
  rw [hshift, ← mul_one ((w.toNat / 2 ^ 12 : Nat) : ℚ), ← zpow_zero (2 : ℚ)] at hword
  obtain ⟨hfinite, hnumber⟩ := hword.number_eq_mantissa hlt (by decide) (by decide)
  have hliteral : (4503599627370496 : Float).isFinite = true := by decide
  have hquotient := rounds_div hfinite hliteral (by rw [number_two_pow_52]; norm_num)
  have hvalue : ((w.toNat / 2 ^ 12 : Nat) : ℚ) * 2 ^ (0 : Int) / 2 ^ 52 =
      (w.toNat / 2 ^ 12 : Nat) * 2 ^ (-52 : Int) := by
    norm_num [zpow_neg, div_eq_mul_inv]
  rw [hnumber, number_two_pow_52, hvalue] at hquotient
  obtain ⟨hdivided, hresult⟩ := hquotient.number_eq_mantissa hlt (by decide) (by decide)
  refine ⟨hdivided, ?_⟩
  show number ((w >>> 12).toFloat / 4503599627370496) = _
  rw [hresult, ← hvalue, zpow_zero, mul_one]

/-- The fraction is at least a unit of 52 bits below one. -/
theorem fraction_bounds (w : UInt64) :
    0 ≤ number (fraction w) ∧ number (fraction w) * 2 ^ 52 ≤ 2 ^ 52 - 1 := by
  have hlt : w.toNat / 2 ^ 12 ≤ 2 ^ 52 - 1 := by
    have := w.toNat_lt
    omega
  have hcast : ((w.toNat / 2 ^ 12 : Nat) : ℚ) ≤ 2 ^ 52 - 1 := by
    calc ((w.toNat / 2 ^ 12 : Nat) : ℚ) ≤ ((2 ^ 52 - 1 : Nat) : ℚ) := by exact_mod_cast hlt
      _ = 2 ^ 52 - 1 := by norm_num
  rw [(number_fraction w).2]
  refine ⟨by positivity, ?_⟩
  rwa [div_mul_cancel₀ _ (by norm_num)]

theorem fraction_mono {w w' : UInt64} (h : w ≤ w') :
    number (fraction w) ≤ number (fraction w') := by
  have hnat : w.toNat / 2 ^ 12 ≤ w'.toNat / 2 ^ 12 := Nat.div_le_div_right h
  rw [(number_fraction w).2, (number_fraction w').2]
  gcongr

/-! ## The product -/

/-- At the least exponent all floats are multiples of one unit, and so is the distance of two. -/
theorem distance_eq_value {a b : Float} {lo : Nat} (hleast : steps lo = 0)
    (hbelow : value lo ≤ number b - number a) (habove : number b - number a < value (lo + 1)) :
    number b - number a = value lo := by
  obtain ⟨m, hm⟩ := exists_number_eq_mul a
  obtain ⟨n, hn⟩ := exists_number_eq_mul b
  have hunit := two_zpow_pos minExponent
  have hvalue : value lo = mantissa lo * 2 ^ minExponent := by
    rw [value, exponent_eq_steps, hleast, Nat.cast_zero, zero_add]
  have hnext : value (lo + 1) = ((mantissa lo : ℚ) + 1) * 2 ^ minExponent := by
    rw [value_succ, hvalue, exponent_eq_steps, hleast, Nat.cast_zero, zero_add]
    ring
  have hdistance : number b - number a = ((n - m : Int) : ℚ) * 2 ^ minExponent := by
    rw [hm, hn]
    push_cast
    ring
  rw [hdistance, hvalue] at hbelow
  rw [hdistance, hnext] at habove
  have hge : ((mantissa lo : Int) : ℚ) ≤ ((n - m : Int) : ℚ) := by
    exact_mod_cast le_of_mul_le_mul_right hbelow hunit
  have hlt : ((n - m : Int) : ℚ) < ((mantissa lo + 1 : Int) : ℚ) := by
    exact_mod_cast lt_of_mul_lt_mul_right habove hunit.le
  have hequal : n - m = mantissa lo :=
    le_antisymm (Int.lt_add_one_iff.mp (by exact_mod_cast hlt)) (by exact_mod_cast hge)
  rw [hdistance, hequal, Int.cast_natCast, ← hvalue]

/-- If the distance is rounded up, its lower neighbour has a full mantissa: at the least exponent
the distance is a float, which rounding keeps. -/
theorem exponentStep_le_mantissa_of_rounded_up {a b : Float} {lo : Nat}
    (hnear : IsNearest (number b - number a) (lo + 1))
    (hup : number b - number a < value (lo + 1)) : exponentStep ≤ mantissa lo := by
  refine (steps_eq_zero_or_le_mantissa lo).resolve_left fun hleast => ?_
  rw [distance_eq_value hleast (hnear.value_le hup) hup] at hnear
  have hequal := hnear.unique (isNearest_value (Nat.le_of_succ_le hnear.le_infinity))
  exact Nat.succ_ne_self lo hequal

/-- The unit that a fraction lacks outweighs the step to the next float, if the mantissa is full. -/
theorem mul_value_succ_le {u : ℚ} {lo : Nat} (hu : u * 2 ^ 52 ≤ 2 ^ 52 - 1)
    (hfills : exponentStep ≤ mantissa lo) : u * value (lo + 1) ≤ value lo := by
  have hmantissa : (2 : ℚ) ^ 52 ≤ mantissa lo := by
    rw [exponentStep_eq] at hfills
    exact_mod_cast hfills
  have hscaled : u * ((mantissa lo : ℚ) + 1) ≤ mantissa lo := by
    nlinarith
  rw [value_succ, value]
  calc u * (mantissa lo * 2 ^ exponent lo + 2 ^ exponent lo)
      = u * ((mantissa lo : ℚ) + 1) * 2 ^ exponent lo := by ring
    _ ≤ mantissa lo * 2 ^ exponent lo := mul_le_mul_of_nonneg_right hscaled (two_zpow_pos _).le

/-- The product with the exact distance stays at or below it. If the distance is rounded up it lies
between two neighbours, and the product with the upper one does not exceed the lower one. -/
theorem product_le_distance {a b d p : Float} {u : ℚ} (hlt : number a < number b)
    (hd : Rounds (number b - number a) d) (hfinite : d.isFinite = true)
    (hp : Rounds (u * number d) p) (hu : u * 2 ^ 52 ≤ 2 ^ 52 - 1) :
    number p ≤ number b - number a := by
  have hq : 0 < number b - number a := sub_pos.mpr hlt
  have hnumber := hd.number_of_nonneg hq.le
  rcases le_or_gt (number d) (number b - number a) with hdown | hup
  · have hless : u * number d ≤ number d := by
      have hone : u ≤ 1 := by linarith
      exact mul_le_of_le_one_left (by rw [hnumber]; exact value_nonneg _) hone
    exact le_trans (hp.number_le hfinite hless) hdown
  · obtain ⟨lo, hlo⟩ : ∃ lo, magnitudeBits d = lo + 1 := by
      refine Nat.exists_eq_succ_of_ne_zero fun hzero => ?_
      rw [hnumber, hzero, value_zero] at hup
      linarith
    have hbits : lo < infinityBits := by
      have := isFinite_iff.mp hfinite
      omega
    have hnear := hd.nearest
    rw [abs_of_pos hq, hlo] at hnear
    rw [hnumber, hlo] at hup
    have hproduct : u * number d ≤ value lo := by
      rw [hnumber, hlo]
      exact mul_value_succ_le hu (exponentStep_le_mantissa_of_rounded_up hnear hup)
    have hbelow := hnear.value_le hup
    rw [← number_ofMagnitude hbits] at hproduct hbelow
    exact le_trans (hp.number_le (isFinite_ofMagnitude hbits) hproduct) hbelow

/-! ## The draw -/

section Draw

variable {range : FloatRange} (hlt : range.min < range.max)
  (hfinite : (range.max - range.min).isFinite = true)

include hlt

theorem not_max_le_min : ¬ range.max ≤ range.min := by
  rw [← not_lt_iff range.finite.1 range.finite.2, not_not]
  exact hlt

theorem number_distance_nonneg : 0 ≤ number (range.max - range.min) := by
  have hbounds := (lt_iff range.finite.1 range.finite.2).mp hlt
  rw [(rounds_sub range.finite.2 range.finite.1).number_of_nonneg (sub_nonneg.mpr hbounds.le)]
  exact value_nonneg _

include hfinite

theorem float_eq_ok {σ : Type} [RandomSource σ] (s : σ) :
    Draw.float range.min range.max s =
      .ok (floatOfWord range (RandomSource.draw64 s).1, (RandomSource.draw64 s).2) := by
  unfold Draw.float
  rw [if_neg (not_max_le_min hlt), range.finite.1, range.finite.2, hfinite]
  rfl

/-- The three roundings of a draw, and where their results lie. -/
theorem floatOfWord_rounds (w : UInt64) :
    ∃ p : Float,
      Rounds ((w.toNat / 2 ^ 12 : Nat) / 2 ^ 52 * number (range.max - range.min)) p ∧
        p.isFinite = true ∧ 0 ≤ number p ∧ number p ≤ number range.max - number range.min ∧
          Rounds (number p + number range.min) (floatOfWord range w) := by
  obtain ⟨hfraction, hu⟩ := number_fraction w
  obtain ⟨hlo, hhi⟩ := fraction_bounds w
  have hbounds := (lt_iff range.finite.1 range.finite.2).mp hlt
  have hnonneg := number_distance_nonneg hlt
  have hproduct := rounds_mul hfraction hfinite
  have hpos : 0 ≤ number (fraction w) * number (range.max - range.min) := mul_nonneg hlo hnonneg
  have hless : number (fraction w) * number (range.max - range.min) ≤
      number (range.max - range.min) := mul_le_of_le_one_left hnonneg (by linarith)
  have hfiniteProduct : (fraction w * (range.max - range.min)).isFinite = true := by
    refine hproduct.isFinite hfinite ?_
    rwa [abs_of_nonneg hpos, abs_of_nonneg hnonneg]
  refine ⟨fraction w * (range.max - range.min), hu ▸ hproduct, hfiniteProduct, ?_,
    product_le_distance hbounds (rounds_sub range.finite.2 range.finite.1) hfinite hproduct hhi,
    rounds_add hfiniteProduct range.finite.1⟩
  rw [hproduct.number_of_nonneg hpos]
  exact value_nonneg _

/-- A drawn float is finite and lies between the bounds, both included. -/
theorem floatOfWord_mem (w : UInt64) : (floatOfWord range w).isFinite = true ∧
    range.min ≤ floatOfWord range w ∧ floatOfWord range w ≤ range.max := by
  obtain ⟨p, -, -, hpos, hle, hsum⟩ := floatOfWord_rounds hlt hfinite w
  have hlo : number range.min ≤ number p + number range.min := by linarith
  have hhi : number p + number range.min ≤ number range.max := by linarith
  have hfiniteSum : (floatOfWord range w).isFinite = true := by
    -- A sum without a minus sign is bounded by the upper bound, another one by the lower bound.
    rcases le_total 0 (number p + number range.min) with hsign | hsign
    · refine hsum.isFinite range.finite.2 ?_
      rw [abs_of_nonneg hsign, abs_of_nonneg (by linarith)]
      exact hhi
    · refine hsum.isFinite range.finite.1 ?_
      rw [abs_of_nonpos hsign, abs_of_nonpos (by linarith)]
      linarith
  rw [le_iff range.finite.1 hfiniteSum, le_iff hfiniteSum range.finite.2]
  exact ⟨hfiniteSum, hsum.le_number range.finite.1 hlo, hsum.number_le range.finite.2 hhi⟩

/-- A greater word does not give a smaller float: each of the roundings keeps the order. -/
theorem floatOfWord_mono {w w' : UInt64} (h : w ≤ w') :
    floatOfWord range w ≤ floatOfWord range w' := by
  have hfraction := fraction_mono h
  rw [(number_fraction w).2, (number_fraction w').2] at hfraction
  obtain ⟨p, hp, -, -, -, hsum⟩ := floatOfWord_rounds hlt hfinite w
  obtain ⟨p', hp', -, -, -, hsum'⟩ := floatOfWord_rounds hlt hfinite w'
  have hproduct := hp.number_mono hp'
    (mul_le_mul_of_nonneg_right hfraction (number_distance_nonneg hlt))
  rw [le_iff (floatOfWord_mem hlt hfinite w).1 (floatOfWord_mem hlt hfinite w').1]
  exact hsum.number_mono hsum' (add_le_add_left hproduct _)

/-- The upper bound is out of reach if the greatest word does not give it. -/
theorem floatOfWord_lt_iff :
    (∀ w, floatOfWord range w < range.max) ↔
      floatOfWord range 18446744073709551615 < range.max := by
  constructor
  · intro h
    exact h _
  · intro h w
    have hle : w ≤ 18446744073709551615 := by
      have := w.toNat_lt
      rw [UInt64.le_iff_toNat_le]
      exact Nat.le_of_lt_succ this
    have hmono := floatOfWord_mono hlt hfinite hle
    have hw := (floatOfWord_mem hlt hfinite w).1
    have hgreatest := (floatOfWord_mem hlt hfinite 18446744073709551615).1
    rw [le_iff hw hgreatest] at hmono
    rw [lt_iff hgreatest range.finite.2] at h
    rw [lt_iff hw range.finite.2]
    exact lt_of_le_of_lt hmono h

end Draw

/-- The floats drawn for a type string. From bounds in order each word gives the fraction of its top
52 bits times the rounded distance, added to the lower bound, rounded each time. The result lies
between the bounds and grows with the word, so that the upper bound is never drawn exactly if the
greatest word does not give it. From equal bounds the bound is the result and no word is taken. -/
theorem parsed_float_between {typeString : String} {range : FloatRange}
    (h : FieldType.parse typeString = .ok (.float range)) :
    (range.min < range.max →
      (∀ {σ : Type} [RandomSource σ] (s : σ), Generate.value (.float range) s =
        .ok (.float (floatOfWord range (RandomSource.draw64 s).1), (RandomSource.draw64 s).2)) ∧
      (∀ w, ∃ d p : Float, Rounds (number range.max - number range.min) d ∧
        Rounds ((w.toNat / 2 ^ 12 : Nat) / 2 ^ 52 * number d) p ∧
          Rounds (number p + number range.min) (floatOfWord range w)) ∧
      (∀ w, range.min ≤ floatOfWord range w ∧ floatOfWord range w ≤ range.max) ∧
      (∀ w w', w ≤ w' → floatOfWord range w ≤ floatOfWord range w') ∧
      ((∀ w, floatOfWord range w < range.max) ↔
        floatOfWord range 18446744073709551615 < range.max)) ∧
      (¬ range.min < range.max → ∀ {σ : Type} [RandomSource σ] (s : σ),
        Generate.value (.float range) s = .ok (.float range.min, s)) := by
  have hunsigned : range.Unsigned := FieldType.denoted_of_parse h
  have hfinite := isFinite_sub range.finite.2 range.finite.1 hunsigned.2 hunsigned.1
  refine ⟨fun hlt => ⟨fun s => ?_, fun w => ?_, fun w => (floatOfWord_mem hlt hfinite w).2,
    fun w w' hle => floatOfWord_mono hlt hfinite hle, floatOfWord_lt_iff hlt hfinite⟩,
    fun hnot _ _ s => ?_⟩
  · simp only [Generate.value, float_eq_ok hlt hfinite]
    rfl
  · obtain ⟨p, hp, -, -, -, hsum⟩ := floatOfWord_rounds hlt hfinite w
    exact ⟨_, p, rounds_sub range.finite.2 range.finite.1, hp, hsum⟩
  · have hempty := (not_lt_iff range.finite.1 range.finite.2).mp hnot
    simp only [Generate.value, Draw.float, if_pos hempty]
    rfl

/-- From zero to one, one is never drawn. -/
theorem parsed_float_below_one :
    FieldType.parse "f" = .ok (.float .unitInterval) ∧
      ∀ w, floatOfWord .unitInterval w < FloatRange.unitInterval.max := by
  have hparse : FieldType.parse "f" = .ok (.float .unitInterval) := rfl
  have hlt : FloatRange.unitInterval.min < FloatRange.unitInterval.max := by decide
  have hgreatest :
      floatOfWord .unitInterval 18446744073709551615 < FloatRange.unitInterval.max := by
    decide
  exact ⟨hparse, ((parsed_float_between hparse).1 hlt).2.2.2.2.mpr hgreatest⟩

/-- The floats from five to ten. Those below ten lie twice as far apart as those below five. -/
def fiveToTen : FloatRange :=
  ⟨5, 10, by decide, by decide⟩

/-- From five to ten, the sum that the greatest word gives lies half way to ten and is rounded to
it. -/
theorem float_draw_reaches_max :
    FieldType.parse "f:5-10" = .ok (.float fiveToTen) ∧ fiveToTen.min < fiveToTen.max ∧
      Generate.value (.float fiveToTen) (Script.ofWords [18446744073709551615]) =
        .ok (.float fiveToTen.max,
          (RandomSource.draw64 (Script.ofWords [18446744073709551615])).2) := by
  have hparse : FieldType.parse "f:5-10" = .ok (.float fiveToTen) := by decide +kernel
  have hlt : fiveToTen.min < fiveToTen.max := by decide
  have hfinite : (fiveToTen.max - fiveToTen.min).isFinite = true := by decide
  have hword : (RandomSource.draw64 (Script.ofWords [18446744073709551615])).1 =
      18446744073709551615 := rfl
  have hten : floatOfWord fiveToTen 18446744073709551615 = fiveToTen.max := by decide +kernel
  refine ⟨hparse, hlt, ?_⟩
  simp only [Generate.value, float_eq_ok hlt hfinite, hword, hten]
  rfl

end Draw

end Specimen
