import Specimen.Proofs.Nearest
import Mathlib.Data.Nat.Cast.Order.Field
import Mathlib.Tactic.FieldSimp

/-!
# Rounding a ratio of natural numbers

`nearestBits` finds the exponent for which a ratio fills the mantissa, rounds the ratio in units of
that power of two, and puts the pattern together. Its result is the pattern nearest to the ratio
(`isNearest_nearestBits`).
-/

namespace Specimen.Binary64

/-- The ratio `num / den` in units of `2 ^ e`. -/
def inUnits (num den : Nat) : Int → Nat × Nat
  | .ofNat k => (num, den * Nat.pow 2 k)
  | .negSucc k => (num * Nat.pow 2 (k + 1), den)

section Ratio

variable {num den : Nat}

theorem inUnits_den_pos (hden : 0 < den) (e : Int) : 0 < (inUnits num den e).2 := by
  unfold inUnits
  cases e with
  | ofNat k => exact Nat.mul_pos hden (Nat.pow_pos (by decide))
  | negSucc k => exact hden

theorem inUnits_eq (num den : Nat) (e : Int) :
    ((inUnits num den e).1 : ℚ) / (inUnits num den e).2 = num / den / 2 ^ e := by
  unfold inUnits
  cases e with
  | ofNat k =>
    simp only [Nat.pow_eq, Int.ofNat_eq_natCast, zpow_natCast]
    push_cast
    rw [div_div]
  | negSucc k =>
    simp only [Nat.pow_eq, zpow_negSucc]
    push_cast
    rw [div_inv_eq_mul, div_mul_eq_mul_div]

theorem fillsMantissa_iff (hden : 0 < den) (e : Int) :
    fillsMantissa num den e = true ↔ (exponentStep : ℚ) ≤ num / den / 2 ^ e := by
  have hpos : (0 : ℚ) < (inUnits num den e).2 := by exact_mod_cast inUnits_den_pos hden e
  rw [← inUnits_eq, le_div_iff₀ hpos]
  unfold fillsMantissa inUnits
  cases e with
  | ofNat k =>
    simp only [Nat.pow_eq, decide_eq_true_eq]
    rw [Nat.mul_comm (den * 2 ^ k)]
    exact_mod_cast Iff.rfl
  | negSucc k =>
    simp only [Nat.pow_eq, decide_eq_true_eq]
    rw [Nat.mul_comm den]
    exact_mod_cast Iff.rfl

/-! ## The exponent -/

/-- Binary logarithms give the size of a ratio up to a factor of two on either side. -/
theorem ratio_between_logs (hnum : 0 < num) (hden : 0 < den) :
    (2 : ℚ) ^ ((num.log2 : Int) - den.log2 - 1) < num / den ∧
      (num / den : ℚ) < 2 ^ ((num.log2 : Int) - den.log2 + 1) := by
  have hdenQ : (0 : ℚ) < den := by exact_mod_cast hden
  have hnumLo : (2 : ℚ) ^ (num.log2 : Int) ≤ num := by
    rw [zpow_natCast]
    exact_mod_cast Nat.log2_self_le (by omega)
  have hnumHi : (num : ℚ) < 2 ^ ((num.log2 : Int) + 1) := by
    rw [show ((num.log2 : Int) + 1) = ((num.log2 + 1 : Nat) : Int) by push_cast; rfl, zpow_natCast]
    exact_mod_cast Nat.lt_log2_self
  have hdenLo : (2 : ℚ) ^ (den.log2 : Int) ≤ den := by
    rw [zpow_natCast]
    exact_mod_cast Nat.log2_self_le (by omega)
  have hdenHi : (den : ℚ) < 2 ^ ((den.log2 : Int) + 1) := by
    rw [show ((den.log2 : Int) + 1) = ((den.log2 + 1 : Nat) : Int) by push_cast; rfl, zpow_natCast]
    exact_mod_cast Nat.lt_log2_self
  constructor
  · rw [lt_div_iff₀ hdenQ]
    calc (2 : ℚ) ^ ((num.log2 : Int) - den.log2 - 1) * den
        < 2 ^ ((num.log2 : Int) - den.log2 - 1) * 2 ^ ((den.log2 : Int) + 1) :=
          mul_lt_mul_of_pos_left hdenHi (two_zpow_pos _)
      _ = 2 ^ (num.log2 : Int) := by
          rw [← zpow_add₀ (by norm_num)]
          congr 1
          ring
      _ ≤ num := hnumLo
  · rw [div_lt_iff₀ hdenQ]
    calc (num : ℚ) < 2 ^ ((num.log2 : Int) + 1) := hnumHi
      _ = 2 ^ ((num.log2 : Int) - den.log2 + 1) * 2 ^ (den.log2 : Int) := by
          rw [← zpow_add₀ (by norm_num)]
          congr 1
          ring
      _ ≤ 2 ^ ((num.log2 : Int) - den.log2 + 1) * den :=
          mul_le_mul_of_nonneg_left hdenLo (two_zpow_pos _).le

theorem exponentStep_eq_zpow : (exponentStep : ℚ) = 2 ^ (52 : Int) := by
  rw [exponentStep_eq]
  norm_num

/-- In units of the exponent that fits, a ratio is below twice the step, and at least the step
unless the exponent is the least one. -/
theorem fitExponent_spec (hnum : 0 < num) (hden : 0 < den) :
    minExponent ≤ fitExponent num den ∧
      (num / den / 2 ^ fitExponent num den : ℚ) < 2 * exponentStep ∧
      (fitExponent num den = minExponent ∨
        (exponentStep : ℚ) ≤ num / den / 2 ^ fitExponent num den) := by
  obtain ⟨hlo, hhi⟩ := ratio_between_logs hnum hden
  set guess : Int := (num.log2 : Int) - den.log2 - 52 with hguess
  set e : Int := if fillsMantissa num den guess then guess else guess - 1 with he
  -- The exponent before it is raised to the least one.
  have hfit : (exponentStep : ℚ) ≤ num / den / 2 ^ e ∧
      (num / den / 2 ^ e : ℚ) < 2 * exponentStep := by
    rw [exponentStep_eq_zpow, show (2 : ℚ) * 2 ^ (52 : Int) = 2 ^ (53 : Int) by norm_num]
    by_cases hfills : fillsMantissa num den guess = true
    · rw [he, if_pos hfills]
      refine ⟨by rw [← exponentStep_eq_zpow]; exact (fillsMantissa_iff hden guess).mp hfills, ?_⟩
      rw [div_lt_iff₀ (two_zpow_pos _), ← zpow_add₀ (by norm_num),
        show (53 : Int) + guess = num.log2 - den.log2 + 1 by omega]
      exact hhi
    · rw [he, if_neg hfills]
      have hless : (num / den / 2 ^ guess : ℚ) < 2 ^ (52 : Int) := by
        rw [← exponentStep_eq_zpow]
        exact lt_of_not_ge fun h => hfills ((fillsMantissa_iff hden guess).mpr h)
      rw [div_lt_iff₀ (two_zpow_pos _), ← zpow_add₀ (by norm_num)] at hless
      constructor
      · rw [le_div_iff₀ (two_zpow_pos _), ← zpow_add₀ (by norm_num),
          show (52 : Int) + (guess - 1) = num.log2 - den.log2 - 1 by omega]
        exact hlo.le
      · rw [div_lt_iff₀ (two_zpow_pos _), ← zpow_add₀ (by norm_num),
          show (53 : Int) + (guess - 1) = 52 + guess by ring]
        exact hless
  have hmax : fitExponent num den = max minExponent e := rfl
  rcases le_total minExponent e with h | h
  · rw [hmax, max_eq_right h]
    exact ⟨h, hfit.2, Or.inr hfit.1⟩
  · rw [hmax, max_eq_left h]
    refine ⟨le_refl _, lt_of_le_of_lt ?_ hfit.2, Or.inl rfl⟩
    have hratio : (0 : ℚ) ≤ num / den := by positivity
    exact div_le_div_of_nonneg_left hratio (two_zpow_pos _) (zpow_le_zpow_right₀ (by norm_num) h)

/-! ## The mantissa -/

/-- `m` is the integer nearest to `x` of `f` and `f + 1`; of two equally near ones it is the even
one. -/
def RoundsHalfEven (x : ℚ) (f m : Nat) : Prop :=
  (m = f ∧ x - f ≤ f + 1 - x ∧ (x - f = f + 1 - x → f % 2 = 0)) ∨
    (m = f + 1 ∧ f + 1 - x ≤ x - f ∧ (x - f = f + 1 - x → (f + 1) % 2 = 0))

/-- How much further a ratio lies from the integer below it than from the one above it. -/
theorem floor_gap (hden : 0 < den) :
    ((num / den : ℚ) - (num / den : Nat)) - ((num / den : Nat) + 1 - num / den) =
      (2 * (num % den : Nat) - den) / den := by
  have hdenQ : (den : ℚ) ≠ 0 := by exact_mod_cast hden.ne'
  have hsplit : (den : ℚ) * (num / den : Nat) + (num % den : Nat) = num := by
    exact_mod_cast Nat.div_add_mod num den
  rw [← hsplit]
  field_simp
  ring

theorem roundsHalfEven_roundHalfEven (hden : 0 < den) :
    RoundsHalfEven (num / den) (num / den) (roundHalfEven num den) := by
  have hgap := @floor_gap num den hden
  have hdenQ : (0 : ℚ) < den := by exact_mod_cast hden
  unfold roundHalfEven
  rcases Nat.lt_trichotomy (2 * (num % den)) den with hlt | heq | hgt
  · have hneg : (2 * (num % den : Nat) - den : ℚ) / den < 0 := by
      have : (2 * (num % den : Nat) : ℚ) < den := by exact_mod_cast hlt
      exact div_neg_of_neg_of_pos (by linarith) hdenQ
    refine Or.inl ⟨if_pos (Or.inl hlt), by linarith, fun h => ?_⟩
    linarith
  · have hzero : (2 * (num % den : Nat) - den : ℚ) / den = 0 := by
      have : (2 * (num % den : Nat) : ℚ) = den := by exact_mod_cast heq
      rw [this, sub_self, zero_div]
    by_cases heven : num / den % 2 = 0
    · exact Or.inl ⟨if_pos (Or.inr ⟨heq, heven⟩), by linarith, fun _ => heven⟩
    · refine Or.inr ⟨if_neg ?_, by linarith, fun _ => by omega⟩
      rintro (h | ⟨-, h⟩)
      · omega
      · exact heven h
  · have hpos : 0 < (2 * (num % den : Nat) - den : ℚ) / den := by
      have : (den : ℚ) < 2 * (num % den : Nat) := by exact_mod_cast hgt
      exact div_pos (by linarith) hdenQ
    refine Or.inr ⟨if_neg ?_, by linarith, fun h => ?_⟩
    · rintro (h | ⟨h, -⟩) <;> omega
    · linarith

/-! ## The pattern -/

/-- A number that is rounded to an integer in units of an exponent gives the nearest pattern, if
the integer below it fits the mantissa, and fills it unless the exponent is the least one. -/
theorem isNearest_of_rounded {x : ℚ} {k f m : Nat} (hfloor : f ≤ x) (hceil : x < f + 1)
    (hfits : f < 2 * exponentStep) (hfills : k = 0 ∨ exponentStep ≤ f)
    (hm : RoundsHalfEven x f m) :
    IsNearest (x * 2 ^ ((k : Int) + minExponent)) (min infinityBits (k * exponentStep + m)) := by
  -- The pattern of the integer below and the next one lie around the number.
  set lo := k * exponentStep + f with hlodef
  set unit : ℚ := 2 ^ ((k : Int) + minExponent) with hunit
  have hpos : 0 < unit := two_zpow_pos _
  have hvalue : value lo = f * unit := value_steps_add hfits.le hfills
  have hnext : value (lo + 1) = (f + 1) * unit := by
    have hbits : lo + 1 = k * exponentStep + (f + 1) := by omega
    rw [hbits, value_steps_add (by omega) (hfills.imp_right Nat.le_succ_of_le)]
    push_cast
    rfl
  have hparity : lo % 2 = f % 2 := by
    rw [hlodef, Nat.add_mod, Nat.mul_mod, show exponentStep % 2 = 0 from rfl, Nat.mul_zero,
      Nat.zero_mod, Nat.zero_add, Nat.mod_mod]
  have hbelow : value lo ≤ x * unit := by
    rw [hvalue]
    exact mul_le_mul_of_nonneg_right hfloor hpos.le
  have habove : x * unit ≤ value (lo + 1) := by
    rw [hnext]
    exact mul_le_mul_of_nonneg_right hceil.le hpos.le
  have hgapLo : x * unit - value lo = (x - f) * unit := by
    rw [hvalue]
    ring
  have hgapHi : value (lo + 1) - x * unit = (f + 1 - x) * unit := by
    rw [hnext]
    ring
  by_cases hinfinity : lo + 1 ≤ infinityBits
  · rcases hm with ⟨rfl, hnear, heven⟩ | ⟨rfl, hnear, heven⟩
    · rw [min_eq_right (by omega)]
      refine isNearest_lower (by omega) hbelow habove ?_ fun htie => ?_
      · rw [hgapLo, hgapHi]
        exact mul_le_mul_of_nonneg_right hnear hpos.le
      · rw [hgapLo, hgapHi] at htie
        rw [hparity]
        exact heven (mul_right_cancel₀ hpos.ne' htie)
    · rw [min_eq_right (by omega), show k * exponentStep + (f + 1) = lo + 1 by omega]
      refine isNearest_upper hinfinity hbelow habove ?_ fun htie => ?_
      · rw [hgapLo, hgapHi]
        exact mul_le_mul_of_nonneg_right hnear hpos.le
      · rw [hgapLo, hgapHi] at htie
        have := heven (mul_right_cancel₀ hpos.ne' htie)
        omega
  · have hfinite : infinityBits ≤ k * exponentStep + m := by
      rcases hm with ⟨rfl, -⟩ | ⟨rfl, -⟩ <;> omega
    rw [min_eq_left hfinite]
    exact isNearest_infinity (le_trans (value_strictMono.monotone (by omega)) hbelow)

theorem ratio_lt_floor_succ (hden : 0 < den) : (num / den : ℚ) < (num / den : Nat) + 1 := by
  have hdenQ : (0 : ℚ) < den := by exact_mod_cast hden
  rw [div_lt_iff₀ hdenQ]
  exact_mod_cast (Nat.div_lt_iff_lt_mul hden).mp (Nat.lt_succ_self (num / den))

theorem le_floor_of_le_ratio {n : Nat} (hden : 0 < den) (h : (n : ℚ) ≤ num / den) :
    n ≤ num / den := by
  have hdenQ : (0 : ℚ) < den := by exact_mod_cast hden
  rw [le_div_iff₀ hdenQ] at h
  exact (Nat.le_div_iff_mul_le hden).mpr (by exact_mod_cast h)

theorem nearestBits_eq (hnum : num ≠ 0) :
    nearestBits num den = min infinityBits
      ((fitExponent num den - minExponent).toNat * exponentStep +
        roundHalfEven (inUnits num den (fitExponent num den)).1
          (inUnits num den (fitExponent num den)).2) := by
  unfold nearestBits inUnits
  rw [if_neg hnum]
  cases fitExponent num den <;> rfl

/-- The pattern nearest to a positive ratio, from its size in units of the exponent that fits. -/
theorem isNearest_nearestBits (num : Nat) (hden : 0 < den) :
    IsNearest (num / den) (nearestBits num den) := by
  by_cases hnum : num = 0
  · subst hnum
    simpa [nearestBits] using isNearest_zero_zero
  · obtain ⟨hmin, hhi, hlo⟩ := fitExponent_spec (Nat.pos_of_ne_zero hnum) hden
    rw [nearestBits_eq hnum]
    have hdpos := @inUnits_den_pos num den hden (fitExponent num den)
    have hke : (((fitExponent num den - minExponent).toNat : Nat) : Int) + minExponent =
        fitExponent num den := by omega
    have hq := inUnits_eq num den (fitExponent num den)
    rw [← hq] at hhi hlo
    generalize inUnits num den (fitExponent num den) = r at *
    have hfits : ((r.1 / r.2 : Nat) : ℚ) < 2 * exponentStep := lt_of_le_of_lt Nat.cast_div_le hhi
    have hfills : (fitExponent num den - minExponent).toNat = 0 ∨ exponentStep ≤ r.1 / r.2 := by
      rcases hlo with hleast | hle
      · exact Or.inl (by omega)
      · exact Or.inr (le_floor_of_le_ratio hdpos hle)
    have hnear := isNearest_of_rounded Nat.cast_div_le (ratio_lt_floor_succ hdpos)
      (by exact_mod_cast hfits) hfills (roundsHalfEven_roundHalfEven hdpos)
    rwa [hke, hq, div_mul_cancel₀ _ (two_zpow_pos _).ne'] at hnear

end Ratio

end Specimen.Binary64
