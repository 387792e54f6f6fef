import Specimen.Binary64
import Mathlib.Algebra.Order.Field.Power
import Mathlib.Algebra.Order.Field.Rat
import Mathlib.Order.Monotone.Basic
import Mathlib.Tactic.Linarith
import Mathlib.Tactic.Positivity
import Mathlib.Tactic.Ring

/-!
# The numbers that bit patterns stand for

A bit pattern without its sign stands for the rational number `mantissa · 2 ^ exponent`. Counting
the patterns up walks through these numbers in increasing order (`value_strictMono`): the next
pattern lies one unit of the exponent higher (`value_succ`), also where the exponent changes. The
pattern of infinity takes the place of the power of two above all finite floats.
-/

namespace Specimen.Binary64

/-- The number of a bit pattern without sign. -/
def value (bits : Nat) : ℚ :=
  mantissa bits * 2 ^ exponent bits

theorem exponentStep_eq : exponentStep = 2 ^ 52 := by decide

theorem exponentStep_pos : 0 < exponentStep := by decide

theorem infinityBits_lt_signBit : infinityBits < signBit := by decide

theorem two_zpow_pos (e : Int) : (0 : ℚ) < 2 ^ e :=
  zpow_pos (by norm_num) e

/-! ## A pattern as a number of steps and a mantissa -/

/-- The number of exponent steps below a pattern, from the least exponent on. -/
def steps (bits : Nat) : Nat :=
  bits / exponentStep - 1

theorem exponent_eq_steps (bits : Nat) : exponent bits = steps bits + minExponent := by
  unfold exponent steps
  split
  · rename_i h
    rw [h]
    simp
  · rename_i h
    obtain ⟨k, hk⟩ := Nat.exists_eq_succ_of_ne_zero h
    rw [hk]
    simp

theorem mantissa_lt (bits : Nat) : mantissa bits < 2 * exponentStep := by
  have hpos := exponentStep_pos
  have hmod := Nat.mod_lt bits hpos
  unfold mantissa
  split
  · rename_i h
    have := (Nat.div_eq_zero_iff_lt hpos).mp h
    omega
  · omega

theorem steps_eq_zero_or_le_mantissa (bits : Nat) :
    steps bits = 0 ∨ exponentStep ≤ mantissa bits := by
  unfold steps mantissa
  split
  · rename_i h
    exact Or.inl (by rw [h])
  · exact Or.inr (Nat.le_add_right _ _)

theorem eq_steps_add_mantissa (bits : Nat) :
    bits = steps bits * exponentStep + mantissa bits := by
  have hsplit := Nat.div_add_mod bits exponentStep
  unfold steps mantissa
  split
  · rename_i h
    rw [h]
    simp
  · rename_i h
    obtain ⟨k, hk⟩ := Nat.exists_eq_succ_of_ne_zero h
    rw [hk, Nat.mul_succ, Nat.mul_comm] at hsplit
    rw [hk, Nat.succ_eq_add_one, Nat.add_sub_cancel]
    omega

/-- The number of a pattern that is put together from steps and a mantissa. A mantissa of twice the
step is the carry into the next exponent. -/
theorem value_steps_add {k m : Nat} (hm : m ≤ 2 * exponentStep) (h : k = 0 ∨ exponentStep ≤ m) :
    value (k * exponentStep + m) = m * 2 ^ ((k : Int) + minExponent) := by
  have hpos := exponentStep_pos
  unfold value mantissa exponent
  by_cases hsmall : m < exponentStep
  · obtain rfl : k = 0 := h.resolve_right (by omega)
    rw [Nat.zero_mul, Nat.zero_add, if_pos (Nat.div_eq_of_lt hsmall),
      if_pos (Nat.div_eq_of_lt hsmall)]
    simp
  · by_cases hcarry : m = 2 * exponentStep
    · have hbits : k * exponentStep + m = exponentStep * (k + 2) + 0 := by
        rw [hcarry]
        ring
      rw [hbits, Nat.mul_add_div hpos, Nat.mul_add_mod, Nat.zero_div, Nat.zero_mod, Nat.add_zero,
        Nat.add_zero, if_neg (by omega), if_neg (by omega), hcarry]
      push_cast
      rw [show ((k : Int) + 2 - 1 + minExponent) = (k + minExponent) + 1 by ring,
        zpow_add_one₀ (by norm_num)]
      ring
    · have hbits : k * exponentStep + m = exponentStep * (k + 1) + (m - exponentStep) := by
        rw [Nat.mul_succ, Nat.mul_comm]
        omega
      have hlt : m - exponentStep < exponentStep := by omega
      rw [hbits, Nat.mul_add_div hpos, Nat.mul_add_mod, Nat.div_eq_of_lt hlt, Nat.mod_eq_of_lt hlt,
        Nat.add_zero, if_neg (by omega), if_neg (by omega), Nat.add_sub_cancel' (by omega)]
      push_cast
      rw [add_sub_cancel_right]

/-! ## The order of the numbers -/

/-- The next pattern lies one unit of the exponent higher. -/
theorem value_succ (bits : Nat) : value (bits + 1) = value bits + 2 ^ exponent bits := by
  have hlt := mantissa_lt bits
  have hnext : bits + 1 = steps bits * exponentStep + (mantissa bits + 1) := by
    have := eq_steps_add_mantissa bits
    omega
  have hcase : steps bits = 0 ∨ exponentStep ≤ mantissa bits + 1 :=
    (steps_eq_zero_or_le_mantissa bits).imp_right Nat.le_succ_of_le
  rw [hnext, value_steps_add (by omega) hcase, value, exponent_eq_steps]
  push_cast
  ring

theorem value_strictMono : StrictMono value := by
  refine strictMono_nat_of_lt_succ fun bits => ?_
  have := two_zpow_pos (exponent bits)
  rw [value_succ]
  linarith

@[simp]
theorem value_zero : value 0 = 0 := by
  simp [value, mantissa]

/-- The least positive float. -/
theorem value_one : value 1 = 2 ^ (-1074 : Int) := by
  have hstep := value_succ 0
  rw [value_zero, zero_add, zero_add] at hstep
  exact hstep

theorem value_nonneg (bits : Nat) : 0 ≤ value bits := by
  rw [← value_zero]
  exact value_strictMono.monotone (Nat.zero_le bits)

/-- The ratio of a pattern is its number. -/
theorem value_eq_ratio (bits : Nat) : value bits = ((ratio bits).1 : ℚ) / (ratio bits).2 := by
  unfold value ratio
  cases exponent bits with
  | ofNat e => simp
  | negSucc e =>
    simp only [zpow_negSucc, Nat.pow_eq, div_eq_mul_inv]
    push_cast
    rfl

theorem ratio_den_pos (bits : Nat) : 0 < (ratio bits).2 := by
  unfold ratio
  cases exponent bits with
  | ofNat e => exact Nat.one_pos
  | negSucc e => exact Nat.pow_pos (by decide)

end Specimen.Binary64
