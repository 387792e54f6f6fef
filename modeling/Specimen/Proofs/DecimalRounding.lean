import Specimen.Decimal.Basic
import Specimen.Proofs.FloatOrder
import Specimen.Proofs.Rounding

/-!
# The float of a decimal

A decimal is a rational number, and it reads as the float nearest to that number
(`isNearest_nearestBits`), also where its exponent alone settles the result. `RoundsTo` says the
same of any rational number, so that what is read can be stated without the reader.
-/

namespace Specimen

open Binary64 (IsNearest infinityBits)

/-- `x` is the float nearest to a number that is not negative. -/
def RoundsTo (q : ℚ) (x : Float) : Prop :=
  ∃ bits, IsNearest q bits ∧ x = Binary64.ofMagnitude bits

namespace RoundsTo

variable {q : ℚ} {x y : Float}

theorem unique (hx : RoundsTo q x) (hy : RoundsTo q y) : x = y := by
  obtain ⟨a, ha, rfl⟩ := hx
  obtain ⟨b, hb, rfl⟩ := hy
  rw [ha.unique hb]

theorem isNegative (h : RoundsTo q x) : Binary64.isNegative x = false := by
  obtain ⟨bits, hbits, rfl⟩ := h
  exact Binary64.isNegative_ofMagnitude hbits.le_infinity

end RoundsTo

namespace Decimal

/-- The number of a decimal. -/
def value (d : Decimal) : ℚ :=
  d.coefficient * 10 ^ d.exponent

theorem ratio_den_pos (d : Decimal) : 0 < d.ratio.2 := by
  unfold ratio
  cases d.exponent with
  | ofNat k => exact Nat.one_pos
  | negSucc k => exact Nat.pow_pos (by decide)

theorem value_eq_ratio (d : Decimal) : d.value = (d.ratio.1 : ℚ) / d.ratio.2 := by
  unfold value ratio
  cases d.exponent with
  | ofNat k => simp
  | negSucc k =>
    simp only [zpow_negSucc, Nat.pow_eq, div_eq_mul_inv]
    push_cast
    rfl

/-! ## Numbers out of range -/

theorem value_infinityBits : Binary64.value infinityBits = 2 ^ (1024 : Int) := by
  have hbits : infinityBits = 2046 * Binary64.exponentStep + Binary64.exponentStep := by decide
  rw [hbits, Binary64.value_steps_add (by decide) (Or.inr (le_refl _)),
    Binary64.exponentStep_eq_zpow, ← zpow_add₀ (by norm_num)]
  rfl

/-- A power of ten is at least that power of eight. -/
theorem two_pow_le_ten_pow (k : Nat) : (2 : ℚ) ^ (3 * k) ≤ 10 ^ k := by
  rw [pow_mul, show (2 : ℚ) ^ 3 = 8 by norm_num]
  exact pow_le_pow_left₀ (by norm_num) (by norm_num) k

/-- A coefficient at a power of ten above the four hundredth lies beyond infinity. -/
theorem isHuge_value {d : Decimal} (h : d.isHuge = true) :
    Binary64.value infinityBits ≤ d.value := by
  simp only [isHuge, ne_eq, decide_not, Bool.and_eq_true, Bool.not_eq_true',
    decide_eq_false_iff_not, decide_eq_true_eq] at h
  obtain ⟨hne, hexp⟩ := h
  have hone : (1 : ℚ) ≤ d.coefficient := by exact_mod_cast Nat.pos_of_ne_zero hne
  calc Binary64.value infinityBits = 2 ^ (1024 : Int) := value_infinityBits
    _ ≤ 2 ^ ((3 * 400 : Nat) : Int) := zpow_le_zpow_right₀ (by norm_num) (by norm_num)
    _ ≤ 10 ^ (400 : Int) := two_pow_le_ten_pow 400
    _ ≤ 10 ^ d.exponent := zpow_le_zpow_right₀ (by norm_num) hexp.le
    _ ≤ d.coefficient * 10 ^ d.exponent := le_mul_of_one_le_left (by positivity) hone

/-- A negative power of ten is at most that power of eight, so a tiny number lies below half of the
least positive float. -/
theorem isTiny_value {d : Decimal} (h : d.isTiny = true) : d.value ≤ 2 ^ (-1075 : Int) := by
  simp only [isTiny, decide_eq_true_eq] at h
  obtain ⟨k, hk⟩ : ∃ k : Nat, d.exponent = -(k : Int) := ⟨(-d.exponent).toNat, by omega⟩
  rw [hk] at h
  have hcoefficient : (d.coefficient : ℚ) ≤ 2 ^ ((d.coefficient.log2 : Int) + 1) := by
    have hlt : d.coefficient < 2 ^ (d.coefficient.log2 + 1) := Nat.lt_log2_self
    rw [show ((d.coefficient.log2 : Int) + 1) = ((d.coefficient.log2 + 1 : Nat) : Int) from rfl,
      zpow_natCast]
    exact_mod_cast hlt.le
  have hpower : ((10 : ℚ) ^ k)⁻¹ ≤ 2 ^ (-(3 * k : Int)) := by
    rw [zpow_neg, show (3 * k : Int) = ((3 * k : Nat) : Int) by push_cast; rfl, zpow_natCast]
    exact inv_anti₀ (by positivity) (two_pow_le_ten_pow k)
  calc d.value = d.coefficient * ((10 : ℚ) ^ k)⁻¹ := by rw [value, hk, zpow_neg, zpow_natCast]
    _ ≤ 2 ^ ((d.coefficient.log2 : Int) + 1) * 2 ^ (-(3 * k : Int)) :=
        mul_le_mul hcoefficient hpower (by positivity) (by positivity)
    _ = 2 ^ ((d.coefficient.log2 : Int) + 1 - 3 * k) := by
        rw [← zpow_add₀ (by norm_num), sub_eq_add_neg]
    _ ≤ 2 ^ (-1075 : Int) := zpow_le_zpow_right₀ (by norm_num) (by omega)

/-! ## The nearest pattern -/

theorem value_nonneg (d : Decimal) : 0 ≤ d.value := by
  unfold value
  positivity

/-- Numbers up to half of the least positive float are nearest to zero. -/
theorem isNearest_zero {q : ℚ} (hq : 0 ≤ q) (h : q ≤ 2 ^ (-1075 : Int)) : IsNearest q 0 := by
  have hone : Binary64.value 1 = 2 * 2 ^ (-1075 : Int) := by
    rw [Binary64.value_one, ← zpow_one_add₀ (by norm_num)]
    rfl
  have hzero := Binary64.value_zero
  refine Binary64.isNearest_lower (Nat.zero_le _) (by rw [hzero]; exact hq) ?_ ?_ fun _ => rfl
  · rw [Nat.zero_add, hone]
    linarith
  · rw [Nat.zero_add, hone, hzero]
    linarith

/-- A decimal reads as the pattern nearest to its number. -/
theorem isNearest_nearestBits (d : Decimal) : IsNearest d.value d.nearestBits := by
  unfold nearestBits
  by_cases hzero : d.coefficient = 0
  · rw [if_pos hzero, value, hzero, Nat.cast_zero, zero_mul]
    exact isNearest_zero (le_refl 0) (by positivity)
  · rw [if_neg hzero]
    by_cases hhuge : d.isHuge = true
    · rw [if_pos hhuge]
      exact Binary64.isNearest_infinity (isHuge_value hhuge)
    · rw [if_neg hhuge]
      by_cases htiny : d.isTiny = true
      · rw [if_pos htiny]
        exact isNearest_zero d.value_nonneg (isTiny_value htiny)
      · rw [if_neg htiny, value_eq_ratio]
        exact Binary64.isNearest_nearestBits _ d.ratio_den_pos

theorem roundsTo_toFloat (d : Decimal) : RoundsTo d.value d.toFloat :=
  ⟨d.nearestBits, d.isNearest_nearestBits, rfl⟩

/-- What rounds from the number of a decimal is the float of the decimal. -/
theorem roundsTo_value_iff {d : Decimal} {x : Float} : RoundsTo d.value x ↔ d.toFloat = x := by
  constructor
  · exact d.roundsTo_toFloat.unique
  · rintro rfl
    exact d.roundsTo_toFloat

end Decimal

end Specimen
