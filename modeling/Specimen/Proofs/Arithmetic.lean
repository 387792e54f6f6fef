import Specimen.Proofs.UnpackedRounding

/-!
# The operations on floats as rounded operations on numbers

A sum, a difference, a product or a quotient of finite floats is the exact result on their numbers,
rounded to the nearest float (`rounds_add` and the like); so is the float of a natural number.
Nothing but a quotient by zero is left out. Rounding keeps the order of the numbers
(`Rounds.number_mono`), and a number that is a float is its own rounding (`Rounds.number_eq`).
-/

namespace Specimen.Binary64

open Float.Model (Format UnpackedFloat totalExponent)
open Float.Model.UnpackedFloat

/-! ## Signs -/

section Signs

variable (s s' : Sign) (p q : ℚ)

@[simp]
theorem signed_zero : signed s 0 = 0 := by
  cases s
  · exact neg_zero
  · rfl

theorem signed_neg : signed (-s) q = -signed s q := by
  cases s
  · exact (neg_neg q).symm
  · rfl

theorem signed_mul : signed (s * s') (p * q) = signed s p * signed s' q := by
  cases s <;> cases s' <;> show _ = _ <;> simp only [signed] <;> ring

theorem signed_div : signed (s / s') (p / q) = signed s p / signed s' q := by
  cases s <;> cases s' <;> simp only [signed]
  · exact (neg_div_neg_eq p q).symm
  · exact (neg_div q p).symm
  · exact (div_neg p).symm
  · rfl

theorem signed_mul_right : signed s (p * q) = signed s p * q := by
  cases s
  · exact (neg_mul p q).symm
  · rfl

theorem cast_apply (n : Nat) : ((s.apply n : Int) : ℚ) = signed s n := by
  cases s
  · exact Int.cast_neg (n : Int)
  · rfl

end Signs

theorem number_eq_signed (x : Float) : number x = signed (sign x) (value (magnitudeBits x)) := by
  unfold number sign
  split <;> rfl

/-! ## Rounding a mantissa of any size -/

theorem log2_shiftLeft {m : Nat} (hm : 0 < m) (n : Nat) : (m <<< n).log2 = m.log2 + n := by
  have hpos : 0 < m * 2 ^ n := Nat.mul_pos hm (Nat.two_pow_pos n)
  rw [Nat.shiftLeft_eq, Nat.log2_eq_iff hpos.ne', Nat.pow_add, Nat.add_right_comm, Nat.pow_add]
  exact ⟨Nat.mul_le_mul_right _ (Nat.log2_self_le hm.ne'),
    Nat.mul_lt_mul_of_pos_right Nat.lt_log2_self (Nat.two_pow_pos n)⟩

/-- Lowering the exponent keeps the number. -/
theorem decreaseExponent_value (m : Nat) {e t : Int} (h : t ≤ e) :
    ((decreaseExponent m e t).1 : ℚ) * 2 ^ t = m * 2 ^ e := by
  have hsplit : e = ((e - t).toNat : Int) + t := by omega
  unfold decreaseExponent
  simp only [Nat.shiftLeft_eq]
  push_cast
  rw [mul_assoc, ← zpow_natCast, ← zpow_add₀ (by norm_num), ← hsplit]

/-- A number of the format is packed as it is. -/
theorem rounds_finite {bits : Nat} (hne : bits ≠ 0) (hlt : bits < infinityBits) (s : Sign) :
    Rounds (signed s (value bits))
      (ofUnpacked (.finite s (mantissa bits) (exponent bits) (mantissa_pos hne))) := by
  have hpacks := packs_finite (mantissa_pos hne) (exponent_eq_steps bits) (mantissa_lt bits)
    (steps_eq_zero_or_le_mantissa bits) s
  rw [← eq_steps_add_mantissa, min_eq_right hlt.le] at hpacks
  exact hpacks.rounds (value_nonneg bits) (isNearest_value hlt.le)

theorem rounds_zero (s : Sign) : Rounds 0 (ofUnpacked (.zero s)) := by
  simpa using (packs_zero s).rounds (le_refl 0) isNearest_zero_zero

theorem rounds_round {m : Nat} (hm : 0 < m) (e : Int) (s : Sign) :
    Rounds (signed s (m * 2 ^ e)) (ofUnpacked (UnpackedFloat.round .binary64 s m e)) := by
  unfold UnpackedFloat.round
  generalize ht : Format.binary64.targetExponent (totalExponent m e) = t
  obtain ⟨n, hn⟩ : ∃ n : Nat, (e - t).toNat = n := ⟨_, rfl⟩
  have hready : e - n ≤ Format.binary64.targetExponent (totalExponent (m <<< n) (e - n)) := by
    rw [targetExponent_eq, totalExponent, log2_shiftLeft hm]
    rw [targetExponent_eq, totalExponent] at ht
    push_cast
    omega
  have hvalue : ((m <<< n : Nat) : ℚ) * 2 ^ (e - (n : Int)) = m * 2 ^ e := by
    rw [Nat.shiftLeft_eq]
    push_cast
    rw [mul_assoc, ← zpow_natCast, ← zpow_add₀ (by norm_num), add_sub_cancel]
  have hrounds := rounds_roundWithAccuracy (describes_exact (m <<< n)) hready s
  rw [hvalue] at hrounds
  simp only [decreaseExponent, hn]
  exact hrounds

theorem rounds_normalize (m : Int) (e : Int) (s : Sign) :
    Rounds (m * 2 ^ e) (ofUnpacked (UnpackedFloat.normalize .binary64 m e s)) := by
  unfold UnpackedFloat.normalize
  rcases Int.lt_trichotomy m 0 with hlt | heq | hgt
  · rw [compare_lt_iff_lt.mpr hlt]
    obtain ⟨n, hn⟩ : ∃ n : Nat, m = -(n : Int) := ⟨(-m).toNat, by omega⟩
    have hrounds := rounds_round (show 0 < (-m).toNat by omega) e .negative
    have hvalue : signed .negative (((-m).toNat : ℚ) * 2 ^ e) = m * 2 ^ e := by
      rw [hn, neg_neg, Int.toNat_natCast, signed]
      push_cast
      ring
    rwa [hvalue] at hrounds
  · rw [compare_eq_iff_eq.mpr heq, heq, Int.cast_zero, zero_mul]
    exact rounds_zero s
  · rw [compare_gt_iff_gt.mpr hgt]
    obtain ⟨n, hn⟩ : ∃ n : Nat, m = n := ⟨m.toNat, by omega⟩
    have hrounds := rounds_round (show 0 < m.toNat by omega) e .positive
    have hvalue : signed .positive ((m.toNat : ℚ) * 2 ^ e) = m * 2 ^ e := by
      rw [hn, Int.toNat_natCast, signed]
      push_cast
      ring
    rwa [hvalue] at hrounds

/-- A float in units of a lower exponent than its own: so two floats are brought to one exponent. -/
theorem apply_decreaseExponent (x : Float) {t : Int} (h : t ≤ exponent (magnitudeBits x)) :
    (((sign x).apply
      (decreaseExponent (mantissa (magnitudeBits x)) (exponent (magnitudeBits x)) t).1 : Int) : ℚ) *
        2 ^ t = number x := by
  rw [cast_apply, ← signed_mul_right, decreaseExponent_value _ h, ← value, ← number_eq_signed]

/-! ## Products and quotients of mantissas -/

theorem le_log2_of_fills {m : Nat} (h : exponentStep ≤ m) : 52 ≤ m.log2 := by
  have hpos : 0 < m := Nat.lt_of_lt_of_le exponentStep_pos h
  rw [exponentStep_eq] at h
  exact (Nat.le_log2 hpos.ne').mpr h

/-- A product has the bits that its exponent asks for: one of the factors fills its mantissa, or
both have the least exponent. -/
theorem exponent_add_le {a b : Nat} (ha : a ≠ 0) (hb : b ≠ 0) :
    exponent a + exponent b ≤ Format.binary64.targetExponent
      (totalExponent (mantissa a * mantissa b) (exponent a + exponent b)) := by
  have hpa := mantissa_pos ha
  have hpb := mantissa_pos hb
  have hsa := exponent_eq_steps a
  have hsb := exponent_eq_steps b
  have hminimum : minExponent = -1074 := rfl
  rw [targetExponent_eq, totalExponent]
  rcases steps_eq_zero_or_le_mantissa a with hleast | hfills
  · rcases steps_eq_zero_or_le_mantissa b with hleast' | hfills
    · omega
    · have := le_log2_of_fills (le_trans hfills (Nat.le_mul_of_pos_left _ hpa))
      omega
  · have := le_log2_of_fills (le_trans hfills (Nat.le_mul_of_pos_right _ hpb))
    omega

/-- A proper fraction behind an integer: twice its numerator against the denominator tells it from
one half. -/
theorem describes_fraction (q : Nat) {r den : Nat} (hlt : r < den) :
    Describes (.ofMantissaAndAccuracy q (accuracyOfFraction r den)) (q + r / den) := by
  have hden : (0 : ℚ) < den := by exact_mod_cast Nat.zero_lt_of_lt hlt
  unfold accuracyOfFraction
  by_cases hzero : r = 0
  · rw [if_pos hzero, hzero, Nat.cast_zero, zero_div, add_zero]
    exact describes_exact q
  · have hpos : (0 : ℚ) < r / den := by
      have hr : (0 : ℚ) < r := by exact_mod_cast Nat.pos_of_ne_zero hzero
      positivity
    rw [if_neg hzero]
    rcases Nat.lt_trichotomy (2 * r) den with hless | hhalf | hmore
    · have hrest : (r : ℚ) / den < 1 / 2 := by
        rw [div_lt_div_iff₀ hden (by norm_num), one_mul, mul_comm]
        exact_mod_cast hless
      rw [compare_lt_iff_lt.mpr hless]
      exact ⟨by linarith, by linarith⟩
    · have hrest : (r : ℚ) / den = 1 / 2 := by
        rw [div_eq_div_iff hden.ne' (by norm_num), one_mul, mul_comm]
        exact_mod_cast hhalf
      rw [compare_eq_iff_eq.mpr hhalf, hrest]
      rfl
    · have hrest : 1 / 2 < (r : ℚ) / den := by
        rw [div_lt_div_iff₀ (by norm_num) hden, one_mul, mul_comm]
        exact_mod_cast hmore
      have hone : (r : ℚ) / den < 1 := (div_lt_one hden).mpr (by exact_mod_cast hlt)
      rw [compare_gt_iff_gt.mpr hmore]
      exact ⟨by linarith, by linarith⟩

/-- The remainder of a division says how the quotient goes on below the point. -/
theorem describes_quotient {num den : Nat} (hden : 0 < den) :
    Describes (.ofMantissaAndAccuracy (num / den) (accuracyOfFraction (num % den) den))
      (num / den) := by
  have hsplit : (num / den : ℚ) = (num / den : Nat) + (num % den : Nat) / den := by
    have hne : (den : ℚ) ≠ 0 := by exact_mod_cast hden.ne'
    have hnat : (num : ℚ) = den * (num / den : Nat) + (num % den : Nat) := by
      exact_mod_cast (Nat.div_add_mod num den).symm
    rw [hnat, add_div, mul_div_cancel_left₀ _ hne]
  rw [hsplit]
  exact describes_fraction _ (Nat.mod_lt num hden)

/-- The bits of a quotient are those of the dividend less those of the divisor, or one less. -/
theorem log2_le_log2_div {num den : Nat} (hnum : 0 < num) (hden : 0 < den) :
    num.log2 ≤ (num / den).log2 + den.log2 + 1 := by
  by_contra hless
  have hquotient : num / den < 2 ^ ((num / den).log2 + 1) := Nat.lt_log2_self
  have hdivisor : den < 2 ^ (den.log2 + 1) := Nat.lt_log2_self
  have hsplit := Nat.lt_mul_div_succ num hden
  have hproduct : den * (num / den + 1) ≤ 2 ^ (den.log2 + 1) * 2 ^ ((num / den).log2 + 1) :=
    Nat.mul_le_mul hdivisor.le hquotient
  have hpower : 2 ^ (den.log2 + 1) * 2 ^ ((num / den).log2 + 1) ≤ 2 ^ num.log2 := by
    rw [← pow_add]
    exact Nat.pow_le_pow_right (by decide) (by omega)
  have hself := Nat.log2_self_le hnum.ne'
  omega

/-- The dividend is shifted far enough for the quotient to have the bits of the format. -/
theorem rounds_divCore {m₁ m₂ : Nat} (h₁ : 0 < m₁) (h₂ : 0 < m₂) (e₁ e₂ : Int) (s : Sign) :
    Rounds (signed s (m₁ * 2 ^ e₁ / (m₂ * 2 ^ e₂)))
      (ofUnpacked (roundWithAccuracy .binary64 s (divCore .binary64 m₁ e₁ m₂ e₂).1
        (divCore .binary64 m₁ e₁ m₂ e₂).2.1 (divCore .binary64 m₁ e₁ m₂ e₂).2.2)) := by
  unfold divCore
  simp only [targetExponent_eq, totalExponent]
  generalize ht : min (e₁ - e₂) (max ((m₁.log2 : Int) + 1 + e₁ - (m₂.log2 + 1 + e₂) - 53)
    minExponent) = t
  obtain ⟨n, hn⟩ : ∃ n : Nat, (e₁ - e₂ - t).toNat = n := ⟨_, rfl⟩
  rw [hn]
  have hshift : e₁ = n + (t + e₂) := by omega
  -- The quotient has at least the bits of the shifted dividend less those of the divisor.
  have hready : t ≤ Format.binary64.targetExponent (totalExponent (m₁ <<< n / m₂) t) := by
    have hpos : 0 < m₁ <<< n := by
      rw [Nat.shiftLeft_eq]
      exact Nat.mul_pos h₁ (Nat.two_pow_pos n)
    have hlog := log2_le_log2_div hpos h₂
    rw [log2_shiftLeft h₁] at hlog
    rw [targetExponent_eq, totalExponent]
    omega
  have hvalue : ((m₁ <<< n : Nat) : ℚ) / m₂ * 2 ^ t = m₁ * 2 ^ e₁ / (m₂ * 2 ^ e₂) := by
    have hne : (m₂ : ℚ) ≠ 0 := by exact_mod_cast h₂.ne'
    have hpow : (2 : ℚ) ^ e₁ = 2 ^ n * (2 ^ t * 2 ^ e₂) := by
      rw [hshift, zpow_add₀ (by norm_num), zpow_add₀ (by norm_num), zpow_natCast]
    have hpos := two_zpow_pos e₂
    rw [Nat.shiftLeft_eq, hpow]
    push_cast
    field_simp
  have hrounds := rounds_roundWithAccuracy (describes_quotient h₂) hready s
  rwa [hvalue] at hrounds

/-! ## Operations -/

section Operations

variable {x y : Float} (hx : x.isFinite = true) (hy : y.isFinite = true)

include hx hy

theorem rounds_add : Rounds (number x + number y) (x + y) := by
  have hxlt := isFinite_iff.mp hx
  have hylt := isFinite_iff.mp hy
  show Rounds _ (ofUnpacked (.add .binary64 x.toModel.unpack y.toModel.unpack))
  -- With a zero the other float is the sum; two zeros decide its sign. All else is added at the
  -- lower of the two exponents.
  rcases unpack_cases hx with ⟨hx0, hux⟩ | ⟨hx0, hux⟩ <;>
    rcases unpack_cases hy with ⟨hy0, huy⟩ | ⟨hy0, huy⟩ <;> rw [hux, huy]
  · rw [number_eq_zero hx0, number_eq_zero hy0, add_zero]
    show Rounds 0 (ofUnpacked (if sign x == sign y then .zero (sign x) else .zero .positive))
    split
    · exact rounds_zero (sign x)
    · exact rounds_zero .positive
  · rw [number_eq_zero hx0, zero_add, number_eq_signed]
    exact rounds_finite hy0 hylt (sign y)
  · rw [number_eq_zero hy0, add_zero, number_eq_signed]
    exact rounds_finite hx0 hxlt (sign x)
  · rw [← apply_decreaseExponent x (min_le_left _ (exponent (magnitudeBits y))),
      ← apply_decreaseExponent y (min_le_right (exponent (magnitudeBits x)) _), ← add_mul,
      ← Int.cast_add]
    exact rounds_normalize _ _ .positive

theorem rounds_sub : Rounds (number x - number y) (x - y) := by
  have hxlt := isFinite_iff.mp hx
  have hylt := isFinite_iff.mp hy
  show Rounds _ (ofUnpacked (.sub .binary64 x.toModel.unpack y.toModel.unpack))
  rcases unpack_cases hx with ⟨hx0, hux⟩ | ⟨hx0, hux⟩ <;>
    rcases unpack_cases hy with ⟨hy0, huy⟩ | ⟨hy0, huy⟩ <;> rw [hux, huy]
  · rw [number_eq_zero hx0, number_eq_zero hy0, sub_zero]
    show Rounds 0 (ofUnpacked (if sign x == -sign y then .zero (sign x) else .zero .positive))
    split
    · exact rounds_zero (sign x)
    · exact rounds_zero .positive
  · rw [number_eq_zero hx0, zero_sub, number_eq_signed, ← signed_neg]
    exact rounds_finite hy0 hylt (-sign y)
  · rw [number_eq_zero hy0, sub_zero, number_eq_signed]
    exact rounds_finite hx0 hxlt (sign x)
  · rw [← apply_decreaseExponent x (min_le_left _ (exponent (magnitudeBits y))),
      ← apply_decreaseExponent y (min_le_right (exponent (magnitudeBits x)) _), ← sub_mul,
      ← Int.cast_sub]
    exact rounds_normalize _ _ .positive

theorem rounds_mul : Rounds (number x * number y) (x * y) := by
  show Rounds _ (ofUnpacked (.mul .binary64 x.toModel.unpack y.toModel.unpack))
  rcases unpack_cases hx with ⟨hx0, hux⟩ | ⟨hx0, hux⟩ <;>
    rcases unpack_cases hy with ⟨hy0, huy⟩ | ⟨hy0, huy⟩ <;> rw [hux, huy]
  · rw [number_eq_zero hx0, zero_mul]
    exact rounds_zero _
  · rw [number_eq_zero hx0, zero_mul]
    exact rounds_zero _
  · rw [number_eq_zero hy0, mul_zero]
    exact rounds_zero _
  · have hproduct := rounds_roundWithAccuracy (describes_exact _) (exponent_add_le hx0 hy0)
      (sign x * sign y)
    have hvalue : ((mantissa (magnitudeBits x) * mantissa (magnitudeBits y) : Nat) : ℚ) *
        2 ^ (exponent (magnitudeBits x) + exponent (magnitudeBits y)) =
          value (magnitudeBits x) * value (magnitudeBits y) := by
      unfold value
      rw [zpow_add₀ (by norm_num)]
      push_cast
      ring
    rw [hvalue, signed_mul, ← number_eq_signed, ← number_eq_signed] at hproduct
    exact hproduct

theorem rounds_div (hne : number y ≠ 0) : Rounds (number x / number y) (x / y) := by
  show Rounds _ (ofUnpacked (.div .binary64 x.toModel.unpack y.toModel.unpack))
  rcases unpack_cases hy with ⟨hy0, huy⟩ | ⟨hy0, huy⟩
  · exact absurd (number_eq_zero hy0) hne
  · rcases unpack_cases hx with ⟨hx0, hux⟩ | ⟨hx0, hux⟩ <;> rw [hux, huy]
    · rw [number_eq_zero hx0, zero_div]
      exact rounds_zero _
    · have hquotient := rounds_divCore (mantissa_pos hx0) (mantissa_pos hy0)
        (exponent (magnitudeBits x)) (exponent (magnitudeBits y)) (sign x / sign y)
      rw [← value, ← value, signed_div, ← number_eq_signed, ← number_eq_signed] at hquotient
      exact hquotient

end Operations

theorem rounds_toFloat (n : UInt64) : Rounds n.toNat n.toFloat := by
  have hrounds := rounds_normalize n.toNat 0 .positive
  rwa [zpow_zero, mul_one, Int.cast_natCast] at hrounds

/-! ## Comparisons -/

section Comparisons

variable {x y : Float} (hx : x.isFinite = true) (hy : y.isFinite = true)

include hx hy

theorem le_iff : x ≤ y ↔ number x ≤ number y := by
  have hcompare : (x ≤ y) ↔ (x.toModel.unpack.compare y.toModel.unpack).any (·.isLE) = true := by
    show decide (x.toModel ≤ y.toModel) = true ↔ _
    rw [decide_eq_true_iff]
    rfl
  rw [hcompare, compare_eq hx hy, Option.any_some, Ordering.isLE_iff_ne_gt]
  exact compare_gt_iff_gt.not.trans not_lt

theorem lt_iff : x < y ↔ number x < number y := by
  have hcompare : (x < y) ↔ (x.toModel.unpack.compare y.toModel.unpack == some .lt) = true := by
    show decide (x.toModel < y.toModel) = true ↔ _
    rw [decide_eq_true_iff]
    rfl
  rw [hcompare, compare_eq hx hy, ← compare_lt_iff_lt]
  simp

/-- Finite floats are all comparable. -/
theorem not_lt_iff : ¬ x < y ↔ y ≤ x := by
  rw [lt_iff hx hy, le_iff hy hx, not_lt]

end Comparisons

/-! ## Rounded numbers -/

theorem isInf_iff {x : Float} : x.isInf = true ↔ magnitudeBits x = infinityBits := by
  have hbits : x.toBits.toBitVec.toNat % signBit = magnitudeBits x := rfl
  unfold Float.isInf Float.Model.isInf
  rw [unpack_toModel]
  rcases Nat.lt_trichotomy (magnitudeBits x) infinityBits with hlt | heq | hgt
  · by_cases hne : magnitudeBits x = 0
    · rw [unpack_eq_zero hne]
      simpa [UnpackedFloat.isInf] using hlt.ne
    · rw [unpack_eq_finite hne hlt]
      simpa [UnpackedFloat.isInf] using hlt.ne
  · rw [unpack_eq_infinity heq]
    simp [UnpackedFloat.isInf, heq]
  · rw [unpack_eq_notANumber hgt]
    simpa [UnpackedFloat.isInf] using hgt.ne'

/-- What lies no further from the higher of two numbers than from the lower one is not below their
middle. -/
theorem middle_le_of_abs_le {q lo hi : ℚ} (h : lo < hi) (hle : |q - hi| ≤ |q - lo|) :
    lo + hi ≤ 2 * q := by
  have hsquare := sq_le_sq.mpr hle
  by_contra hless
  have hpos := mul_pos (sub_pos.mpr h) (sub_pos.mpr (not_le.mp hless))
  nlinarith

theorem le_middle_of_abs_le {q lo hi : ℚ} (h : lo < hi) (hle : |q - lo| ≤ |q - hi|) :
    2 * q ≤ lo + hi := by
  have hsquare := sq_le_sq.mpr hle
  by_contra hless
  have hpos := mul_pos (sub_pos.mpr h) (sub_pos.mpr (not_le.mp hless))
  nlinarith

/-- Rounding to nearest keeps the order: patterns in the other order would both be nearest to the
middle between them. -/
theorem IsNearest.le {p q : ℚ} {a b : Nat} (ha : IsNearest p a) (hb : IsNearest q b)
    (h : p ≤ q) : a ≤ b := by
  by_contra hgt
  have hvalue := value_strictMono (Nat.not_le.mp hgt)
  have hp := middle_le_of_abs_le hvalue (ha.closest b hb.le_infinity)
  have hq := le_middle_of_abs_le hvalue (hb.closest a ha.le_infinity)
  obtain rfl : p = q := by linarith
  exact hgt (ha.unique hb).le

/-- A number that is rounded up is not below the lower neighbour: it would be nearer to it. -/
theorem IsNearest.value_le {q : ℚ} {lo : Nat} (h : IsNearest q (lo + 1))
    (hup : q < value (lo + 1)) : value lo ≤ q := by
  have hmiddle := middle_le_of_abs_le (value_strictMono (Nat.lt_succ_self lo))
    (h.closest lo (Nat.le_of_succ_le h.le_infinity))
  rw [Nat.succ_eq_add_one] at hmiddle
  linarith

theorem abs_number (x : Float) : |number x| = value (magnitudeBits x) := by
  unfold number
  split
  · rw [abs_neg, abs_of_nonneg (value_nonneg _)]
  · rw [abs_of_nonneg (value_nonneg _)]

/-- A finite float is its own rounding. -/
theorem rounds_self {x : Float} (h : x.isFinite = true) : Rounds (number x) x where
  nearest := by
    rw [abs_number]
    exact isNearest_value (isFinite_iff.mp h).le
  isNegative_iff hne := by
    unfold number at hne ⊢
    split
    · rename_i hneg
      rw [if_pos hneg, neg_ne_zero] at hne
      have hpos := lt_of_le_of_ne (value_nonneg _) hne.symm
      exact iff_of_true hneg (neg_lt_zero.mpr hpos)
    · rename_i hneg
      exact iff_of_false hneg (not_lt.mpr (value_nonneg _))

namespace Rounds

variable {p q : ℚ} {x y z : Float}

/-- A rounded number may be infinite, but it is a number. -/
theorem isInf_iff_not_isFinite (h : Rounds q z) : z.isInf = true ↔ z.isFinite = false := by
  have hle := h.nearest.le_infinity
  rw [← Bool.not_eq_true, isFinite_iff, isInf_iff, Nat.not_lt]
  omega

theorem number_of_nonneg (h : Rounds q z) (hq : 0 ≤ q) : number z = value (magnitudeBits z) := by
  rcases eq_or_lt_of_le hq with rfl | hpos
  · have hnear := h.nearest
    rw [abs_zero] at hnear
    have hbits := hnear.unique isNearest_zero_zero
    simp [number_eq_zero hbits, hbits]
  · have hsign : ¬ isNegative z = true := fun hneg =>
      absurd ((h.isNegative_iff hpos.ne').mp hneg) (not_lt.mpr hq)
    rw [number, if_neg hsign]

theorem number_of_neg (h : Rounds q z) (hq : q < 0) : number z = -value (magnitudeBits z) := by
  rw [number, if_pos ((h.isNegative_iff hq.ne).mpr hq)]

theorem number_mono (hx : Rounds p x) (hy : Rounds q y) (h : p ≤ q) : number x ≤ number y := by
  rcases le_or_gt 0 p with hp | hp
  · have hq : 0 ≤ q := le_trans hp h
    have hnearX := hx.nearest
    have hnearY := hy.nearest
    rw [abs_of_nonneg hp] at hnearX
    rw [abs_of_nonneg hq] at hnearY
    rw [hx.number_of_nonneg hp, hy.number_of_nonneg hq]
    exact value_strictMono.monotone (hnearX.le hnearY h)
  · -- Below zero the magnitudes are in the other order.
    rcases le_or_gt 0 q with hq | hq
    · have hlo := value_nonneg (magnitudeBits x)
      have hhi := value_nonneg (magnitudeBits y)
      rw [hx.number_of_neg hp, hy.number_of_nonneg hq]
      linarith
    · have hnearX := hx.nearest
      have hnearY := hy.nearest
      rw [abs_of_neg hp] at hnearX
      rw [abs_of_neg hq] at hnearY
      rw [hx.number_of_neg hp, hy.number_of_neg hq]
      exact neg_le_neg (value_strictMono.monotone (hnearY.le hnearX (neg_le_neg h)))

theorem number_eq (h : Rounds (number x) z) (hx : x.isFinite = true) : number z = number x :=
  le_antisymm (h.number_mono (rounds_self hx) le_rfl) ((rounds_self hx).number_mono h le_rfl)

theorem number_le (h : Rounds q z) (hx : x.isFinite = true) (hle : q ≤ number x) :
    number z ≤ number x :=
  h.number_mono (rounds_self hx) hle

theorem le_number (h : Rounds q z) (hx : x.isFinite = true) (hle : number x ≤ q) :
    number x ≤ number z :=
  (rounds_self hx).number_mono h hle

/-- What is no larger than a finite float rounds to a finite float. -/
theorem isFinite (h : Rounds q z) (hx : x.isFinite = true) (hle : |q| ≤ |number x|) :
    z.isFinite = true := by
  have hbits := h.nearest.le (rounds_self hx).nearest hle
  rw [isFinite_iff] at hx ⊢
  omega

end Rounds

theorem number_nonneg {x : Float} (h : isNegative x = false) : 0 ≤ number x := by
  rw [number, h]
  exact value_nonneg _

/-- The distance of two finite floats without sign bits is finite: it is no larger than the larger
one. -/
theorem isFinite_sub {x y : Float} (hx : x.isFinite = true) (hy : y.isFinite = true)
    (hxs : isNegative x = false) (hys : isNegative y = false) : (x - y).isFinite = true := by
  have hxpos := number_nonneg hxs
  have hypos := number_nonneg hys
  have hrounds := rounds_sub hx hy
  rcases le_total (number x) (number y) with hle | hle
  · refine hrounds.isFinite hy ?_
    rw [abs_of_nonpos (by linarith), abs_of_nonneg hypos]
    linarith
  · refine hrounds.isFinite hx ?_
    rw [abs_of_nonneg (by linarith), abs_of_nonneg hxpos]
    linarith

/-! ## Numbers that are floats -/

section Magnitude

variable {bits : Nat} (h : bits < infinityBits)

include h

theorem isFinite_ofMagnitude : (ofMagnitude bits).isFinite = true := by
  rwa [isFinite_iff, magnitudeBits_ofMagnitude h.le]

theorem number_ofMagnitude : number (ofMagnitude bits) = value bits := by
  rw [number, isNegative_ofMagnitude h.le, magnitudeBits_ofMagnitude h.le]
  rfl

end Magnitude

/-- A mantissa of at most 53 bits is shifted to the left until it fills them or no shift is left. -/
theorem exists_shift_fills {m : Nat} (hpos : 0 < m) (hm : m < 2 * exponentStep) (k : Nat) :
    ∃ j ≤ k, m * 2 ^ j < 2 * exponentStep ∧ (k - j = 0 ∨ exponentStep ≤ m * 2 ^ j) := by
  rw [exponentStep_eq, ← pow_succ'] at *
  have hlog : m.log2 < 53 := (Nat.log2_lt hpos.ne').mpr hm
  obtain ⟨j, hj⟩ : ∃ j, min (52 - m.log2) k = j := ⟨_, rfl⟩
  refine ⟨j, by omega, ?_, ?_⟩
  · calc m * 2 ^ j < 2 ^ (m.log2 + 1) * 2 ^ j :=
          Nat.mul_lt_mul_of_pos_right Nat.lt_log2_self (Nat.two_pow_pos j)
      _ = 2 ^ (m.log2 + 1 + j) := (pow_add ..).symm
      _ ≤ 2 ^ (52 + 1) := Nat.pow_le_pow_right (by decide) (by omega)
  · by_cases hleast : k - j = 0
    · exact Or.inl hleast
    · have hall : m.log2 + j = 52 := by omega
      refine Or.inr ?_
      rw [← hall, pow_add]
      exact Nat.mul_le_mul_right _ (Nat.log2_self_le hpos.ne')

/-- A mantissa of at most 53 bits at an exponent of the format is a float. -/
theorem exists_value_eq {m : Nat} {e : Int} (hm : m < 2 * exponentStep) (hlo : minExponent ≤ e)
    (hhi : e ≤ 971) : ∃ bits < infinityBits, value bits = m * 2 ^ e := by
  rcases Nat.eq_zero_or_pos m with rfl | hpos
  · exact ⟨0, by decide, by simp⟩
  · obtain ⟨k, hk⟩ : ∃ k : Nat, e = k + minExponent := ⟨(e - minExponent).toNat, by omega⟩
    obtain ⟨j, hj, hlt, hfills⟩ := exists_shift_fills hpos hm k
    refine ⟨(k - j) * exponentStep + m * 2 ^ j, ?_, ?_⟩
    · have hinfinity : infinityBits = 2047 * exponentStep := by decide
      have hminimum : minExponent = -1074 := rfl
      have hsteps : k - j ≤ 2045 := by omega
      have := Nat.mul_le_mul_right exponentStep hsteps
      omega
    · have hsplit : (((k - j : Nat) : Int) + minExponent) + j = e := by omega
      rw [value_steps_add hlt.le hfills, ← hsplit, zpow_add₀ (by norm_num) _ (j : Int),
        zpow_natCast]
      push_cast
      ring

/-- A number with such a mantissa is its own rounding. -/
theorem Rounds.number_eq_mantissa {m : Nat} {e : Int} {z : Float}
    (h : Rounds (m * 2 ^ e : ℚ) z) (hm : m < 2 * exponentStep) (hlo : minExponent ≤ e)
    (hhi : e ≤ 971) : z.isFinite = true ∧ number z = m * 2 ^ e := by
  obtain ⟨bits, hbits, hvalue⟩ := exists_value_eq hm hlo hhi
  have hfinite := isFinite_ofMagnitude hbits
  rw [← hvalue, ← number_ofMagnitude hbits] at h ⊢
  exact ⟨h.isFinite hfinite le_rfl, h.number_eq hfinite⟩

/-- All finite floats are multiples of the least positive one. -/
theorem exists_number_eq_mul (x : Float) : ∃ n : Int, number x = n * 2 ^ minExponent := by
  have hvalue : value (magnitudeBits x) =
      ((mantissa (magnitudeBits x) * 2 ^ steps (magnitudeBits x) : Int) : ℚ) *
        2 ^ minExponent := by
    rw [value, exponent_eq_steps, zpow_add₀ (by norm_num), zpow_natCast]
    push_cast
    ring
  unfold number
  split
  · refine ⟨-(mantissa (magnitudeBits x) * 2 ^ steps (magnitudeBits x)), ?_⟩
    rw [hvalue, Int.cast_neg, neg_mul]
  · exact ⟨_, hvalue⟩

end Specimen.Binary64
