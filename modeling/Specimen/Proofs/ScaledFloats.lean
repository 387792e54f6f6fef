import Specimen.Json.Number
import Specimen.Proofs.Arithmetic
import Specimen.Proofs.ShortestDecimal

/-!
# Decimals of finite floats stay finite when they are read

A literal is read by multiplying or dividing two floats, so the result may be another float than the
nearest one, and close to the largest float it may be infinite. Products are bounded by that of
larger factors (`UpTo.isFinite_mul`), which leaves one product for each large power of ten. Among
the decimals of seventeen digits that are nearest to a finite float only one cannot be read
(`exists_scaled?`), and it is no shortest decimal (`shortest_ne`).
-/

namespace Specimen.Json

open Binary64 (infinityBits)

section Products

open Binary64 (number value)

/-! ## Products that stay finite -/

/-- `x` lies between zero and `bound`, both finite floats. -/
structure UpTo (bound x : Float) : Prop where
  isFinite_bound : bound.isFinite = true
  isFinite : x.isFinite = true
  nonneg : 0 ≤ number x
  le : number x ≤ number bound

theorem upTo_ofMagnitude {lo hi : Nat} (h : lo ≤ hi) (hfinite : hi < infinityBits) :
    UpTo (Binary64.ofMagnitude hi) (Binary64.ofMagnitude lo) := by
  have hlo : lo < infinityBits := lt_of_le_of_lt h hfinite
  refine ⟨Binary64.isFinite_ofMagnitude hfinite, Binary64.isFinite_ofMagnitude hlo, ?_, ?_⟩
  · rw [Binary64.number_ofMagnitude hlo]
    exact Binary64.value_nonneg lo
  · rw [Binary64.number_ofMagnitude hlo, Binary64.number_ofMagnitude hfinite]
    exact Binary64.value_strictMono.monotone h

/-- A product is finite if that of the bounds is. -/
theorem UpTo.isFinite_mul {a b x y : Float} (hx : UpTo a x) (hy : UpTo b y)
    (h : (a * b).isFinite = true) : (x * y).isFinite = true := by
  have hproduct : |number x * number y| ≤ |number a * number b| := by
    have hle := mul_le_mul hx.le hy.le hy.nonneg (le_trans hx.nonneg hx.le)
    rw [abs_of_nonneg (mul_nonneg hx.nonneg hy.nonneg)]
    exact le_trans hle (le_abs_self _)
  have hbits := (Binary64.rounds_mul hx.isFinite hy.isFinite).nearest.le
    (Binary64.rounds_mul hx.isFinite_bound hy.isFinite_bound).nearest hproduct
  rw [Binary64.isFinite_iff] at h ⊢
  exact lt_of_le_of_lt hbits h

theorem nearestBits_mono {m n : Nat} (h : m ≤ n) :
    Binary64.nearestBits m 1 ≤ Binary64.nearestBits n 1 := by
  refine (Binary64.isNearest_nearestBits m Nat.one_pos).le
    (Binary64.isNearest_nearestBits n Nat.one_pos) ?_
  rw [Nat.cast_one, div_one, div_one]
  exact_mod_cast h

theorem upTo_ofNat {m n : Nat} (h : m ≤ n) (hn : n ≤ 10 ^ 17) :
    UpTo (Binary64.ofNat n) (Binary64.ofNat m) := by
  have hlast : Binary64.nearestBits (10 ^ 17) 1 < infinityBits := by decide +kernel
  exact upTo_ofMagnitude (nearestBits_mono h) (lt_of_le_of_lt (nearestBits_mono hn) hlast)

theorem nearestBits_power_mono {m n : Nat} (h : m ≤ n) :
    (⟨1, m⟩ : Decimal).nearestBits ≤ (⟨1, n⟩ : Decimal).nearestBits := by
  refine (Decimal.isNearest_nearestBits _).le (Decimal.isNearest_nearestBits _) ?_
  have hpower := zpow_le_zpow_right₀ (show (1 : ℚ) ≤ 10 by norm_num) (Int.ofNat_le.mpr h)
  simpa [Decimal.value] using hpower

theorem upTo_powerOfTen {m n : Nat} (h : m ≤ n) (hn : n ≤ Literal.largestPower) :
    UpTo (Literal.powerOfTen n) (Literal.powerOfTen m) := by
  have hlast : (⟨1, Literal.largestPower⟩ : Decimal).nearestBits < infinityBits := by
    decide +kernel
  exact upTo_ofMagnitude (nearestBits_power_mono h)
    (lt_of_le_of_lt (nearestBits_power_mono hn) hlast)

/-! ## Decimals of finite floats are in range -/

/-- The middle between the largest finite float and infinity. -/
def overflowBound : Nat := 2 ^ 1024 - 2 ^ 970

/-- The largest finite float lies a step of its exponent below infinity. -/
theorem value_largest : value (infinityBits - 1) = 2 ^ (1024 : Int) - 2 ^ (971 : Int) := by
  have hnext := Binary64.value_succ (infinityBits - 1)
  have hexponent : Binary64.exponent (infinityBits - 1) = 971 := by decide +kernel
  rw [show infinityBits - 1 + 1 = infinityBits from rfl, Decimal.value_infinityBits,
    hexponent] at hnext
  exact eq_sub_of_add_eq hnext.symm

theorem cast_overflowBound : (overflowBound : ℚ) = 2 ^ (1024 : Int) - 2 ^ (970 : Int) := by
  rw [overflowBound, Nat.cast_sub (by decide +kernel), Nat.cast_pow, Nat.cast_pow]
  rfl

/-- What is nearest to a finite float lies below the middle to infinity. -/
theorem le_overflowBound {q : ℚ} {bits : Nat} (h : Binary64.IsNearest q bits)
    (hfinite : bits < infinityBits) : q ≤ overflowBound := by
  have hlargest := value_largest
  have hbelow : value bits ≤ value (infinityBits - 1) :=
    Binary64.value_strictMono.monotone (by omega)
  have hmiddle := Binary64.le_middle_of_abs_le (Binary64.value_strictMono hfinite)
    (h.closest infinityBits (le_refl _))
  have hdouble : (2 : ℚ) ^ (971 : Int) = 2 ^ (970 : Int) * 2 := zpow_add_one₀ (by norm_num) 970
  rw [Decimal.value_infinityBits] at hmiddle
  rw [cast_overflowBound]
  generalize (2 : ℚ) ^ (1024 : Int) = top at *
  generalize (2 : ℚ) ^ (971 : Int) = step at *
  linarith

/-- The largest significand of seventeen digits that is met with a power of ten. -/
def largestSignificand (k : Nat) : Nat :=
  if k = 292 then 17976931348623157 else min (10 ^ 17) (overflowBound / 10 ^ k)

theorem isFinite_largest {k : Nat} (hlo : 290 ≤ k) (hhi : k ≤ Literal.largestPower) :
    (Binary64.ofNat (largestSignificand k) * Literal.powerOfTen k).isFinite = true := by
  obtain ⟨j, rfl⟩ := Nat.exists_eq_add_of_le hlo
  have hj : j < 19 := by
    have : Literal.largestPower = 308 := rfl
    omega
  -- What is left are nineteen products of numbers.
  clear hlo hhi
  decide +kernel +revert

/-- Beyond the largest power of ten that is a float there are no finite floats. -/
theorem le_largestPower {coefficient k : Nat} (hzero : coefficient ≠ 0)
    (h : coefficient * 10 ^ k ≤ overflowBound) : k ≤ Literal.largestPower := by
  by_contra hlarge
  have hbound : overflowBound < 10 ^ (Literal.largestPower + 1) := by decide +kernel
  have hpower : 10 ^ (Literal.largestPower + 1) ≤ 10 ^ k :=
    Nat.pow_le_pow_right (by decide) (Nat.succ_le_of_lt (Nat.not_le.mp hlarge))
  have hproduct := Nat.le_mul_of_pos_left (10 ^ k) (Nat.pos_of_ne_zero hzero)
  exact absurd h (Nat.not_le.mpr (lt_of_lt_of_le hbound (le_trans hpower hproduct)))

theorem isFinite_scaled {coefficient k : Nat} (hzero : coefficient ≠ 0)
    (hdigits : coefficient ≤ 10 ^ 17) (h : coefficient * 10 ^ k ≤ overflowBound)
    (hother : ¬ (coefficient = 17976931348623158 ∧ k = 292)) :
    (Binary64.ofNat coefficient * Literal.powerOfTen k).isFinite = true := by
  have hk := le_largestPower hzero h
  have hquotient : coefficient ≤ overflowBound / 10 ^ k :=
    (Nat.le_div_iff_mul_le (Nat.pow_pos (by decide))).mpr h
  by_cases hsmall : k ≤ 290
  · have hbound : largestSignificand 290 = 10 ^ 17 := by decide +kernel
    refine (upTo_ofNat hdigits (le_refl _)).isFinite_mul (upTo_powerOfTen hsmall (by decide)) ?_
    rw [← hbound]
    exact isFinite_largest (le_refl _) (by decide)
  · have hle : coefficient ≤ largestSignificand k ∧ largestSignificand k ≤ 10 ^ 17 := by
      unfold largestSignificand
      split
      · rename_i hedge
        subst hedge
        have hbound : overflowBound / 10 ^ 292 = 17976931348623158 := by decide +kernel
        omega
      · omega
    exact (upTo_ofNat hle.1 hle.2).isFinite_mul (upTo_powerOfTen (le_refl k) hk)
      (isFinite_largest (by omega) hk)

theorem exists_scaled?_negSucc (coefficient k : Nat) :
    ∃ y, Literal.scaled? coefficient (.negSucc k) = some y := by
  rw [Literal.scaled?]
  split
  · exact ⟨_, rfl⟩
  · split
    · exact ⟨_, rfl⟩
    · exact ⟨_, rfl⟩

/-- A decimal of seventeen digits that is nearest to a finite float is read as a float, but for the
one above the largest finite float. -/
theorem exists_scaled? {d : Decimal} (hzero : d.coefficient ≠ 0) (hdigits : d.coefficient ≤ 10 ^ 17)
    (hfinite : d.nearestBits < infinityBits) (hother : d ≠ ⟨17976931348623158, 292⟩) :
    ∃ y, Literal.scaled? d.coefficient d.exponent = some y := by
  obtain ⟨coefficient, exponent⟩ := d
  cases exponent with
  | ofNat k =>
    have hbound : coefficient * 10 ^ k ≤ overflowBound := by
      have hle := le_overflowBound (Decimal.isNearest_nearestBits _) hfinite
      rw [Decimal.value, Int.ofNat_eq_natCast, zpow_natCast] at hle
      exact_mod_cast hle
    have hedge : ¬ (coefficient = 17976931348623158 ∧ k = 292) := by
      rintro ⟨rfl, rfl⟩
      exact hother rfl
    have hproduct := isFinite_scaled hzero hdigits hbound hedge
    have hinf : ¬ (Binary64.ofNat coefficient * Literal.powerOfTen k).isInf = true := by
      rw [Binary64.isFinite_iff] at hproduct
      rw [Binary64.isInf_iff]
      exact hproduct.ne
    refine ⟨Binary64.ofNat coefficient * Literal.powerOfTen k, ?_⟩
    rw [Literal.scaled?]
    simp only [if_pos (le_largestPower hzero hbound), if_neg hinf]
  | negSucc k => exact exists_scaled?_negSucc coefficient k

/-- The largest finite float has a shorter decimal than the one that cannot be read. -/
theorem shortest_ne {bits : Nat} (hfinite : bits < infinityBits) :
    Decimal.shortest .even bits ≠ ⟨17976931348623158, 292⟩ := by
  intro h
  have hbits := Decimal.nearestBits_shortest .even hfinite.le
  have hlast : (⟨17976931348623158, 292⟩ : Decimal).nearestBits = infinityBits - 1 := by
    decide +kernel
  rw [h, hlast] at hbits
  have hshortest : Decimal.shortest .even (infinityBits - 1) = ⟨17976931348623157, 292⟩ := by
    decide +kernel
  rw [← hbits, hshortest] at h
  exact absurd (congrArg Decimal.coefficient h) (by decide)

end Products

end Specimen.Json
