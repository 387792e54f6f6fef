import Specimen.Decimal.Layout
import Specimen.Proofs.Literals

/-!
# Displayed floats read back

The decimal that a float is displayed with reads as the float again (`nearestBits_shortest`),
whichever grid it is found on, and the text of it is a literal for its number. A displayed finite
float without sign bit is therefore a literal that rounds to the float (`displayFloat_literal`);
with the sign bit it starts with a hyphen and is no literal (`displayFloat_of_isNegative`).
-/

namespace Specimen

open Binary64 (IsNearest infinityBits)
open Decimal (Literal Mantissa)
open Numeral (Digits)

/-! ## The shortest decimal -/

namespace Decimal

theorem nearestBits_eq_of_value_eq {d d' : Decimal} (h : d.value = d'.value) :
    d.nearestBits = d'.nearestBits := by
  have hnear := d'.isNearest_nearestBits
  rw [← h] at hnear
  exact d.isNearest_nearestBits.unique hnear

@[simp]
theorem value_trimZeros (fuel : Nat) (d : Decimal) : (trimZeros fuel d).value = d.value := by
  induction fuel generalizing d with
  | zero => rfl
  | succ fuel ih =>
    unfold trimZeros
    split
    · rename_i h
      rw [ih]
      have hten : d.coefficient = 10 * (d.coefficient / 10) := by omega
      unfold value
      rw [zpow_add_one₀ (by norm_num)]
      conv_rhs => rw [hten]
      push_cast
      ring
    · rfl

/-- A factor `2 ^ -1` is `5 · 10 ^ -1`, so every finite float is a decimal. -/
@[simp]
theorem value_exact (bits : Nat) : (exact bits).value = Binary64.value bits := by
  unfold exact value Binary64.value
  cases Binary64.exponent bits with
  | ofNat e =>
    simp only [Nat.pow_eq, zpow_zero, mul_one, Int.ofNat_eq_natCast, zpow_natCast]
    push_cast
    rfl
  | negSucc e =>
    simp only [Nat.pow_eq, zpow_negSucc]
    push_cast
    rw [show (10 : ℚ) = 5 * 2 by norm_num, mul_pow, mul_inv, ← mul_assoc, mul_assoc _ (5 ^ (e + 1)),
      mul_inv_cancel₀ (by positivity), mul_one]

/-- The shortest decimal of a magnitude reads back as the magnitude. -/
theorem nearestBits_shortest (tie : Tie) {bits : Nat} (h : bits ≤ infinityBits) :
    (shortest tie bits).nearestBits = bits := by
  unfold shortest
  split
  · rename_i hzero
    rw [hzero]
    rfl
  · cases hfind : (candidates tie bits).find? fun d => d.nearestBits == bits with
    | some d =>
      have hd : d.nearestBits = bits := by simpa using List.find?_some hfind
      change (trimZeros 1 d).nearestBits = bits
      rw [nearestBits_eq_of_value_eq (value_trimZeros 1 d), hd]
    | none =>
      have hnear := (exact bits).isNearest_nearestBits
      rw [value_exact] at hnear
      exact hnear.unique (Binary64.isNearest_value h)

end Decimal

/-! ## Positional text -/

namespace FloatLayout

/-- A decimal without an exponent of its own is a literal for its number, if nothing is written
behind whole numbers. -/
theorem positionalText_literal {layout : FloatLayout} (hsuffix : layout.wholeSuffix = [])
    (d : Decimal) : Literal (layout.positionalText d) d.value := by
  have hdigits := Numeral.digits_ofNat d.coefficient
  unfold positionalText
  split
  · rename_i k hk
    have hwhole : Digits (Numeral.ofNat d.coefficient ++ List.replicate k '0')
        (d.coefficient * 10 ^ k) := by
      refine Numeral.digits_iff.mpr ⟨Numeral.isNumeral_append hdigits.isNumeral ?_, ?_⟩
      · intro c hc
        rw [List.eq_of_mem_replicate hc]
        rfl
      · rw [Numeral.value_replicate_zero, hdigits.value_eq]
    rw [hsuffix, List.append_nil]
    have hvalue : d.value = (d.coefficient * 10 ^ k : Nat) := by
      rw [Decimal.value, hk]
      push_cast
      rfl
    rw [hvalue]
    exact .plain (.whole hwhole)
  · rename_i k hk
    have hvalue : d.value = d.coefficient / 10 ^ (k + 1) := by
      rw [Decimal.value, hk, zpow_negSucc, div_eq_mul_inv]
    have hdigit : ∀ c ∈ Numeral.ofNat d.coefficient, c.isDigit = true := hdigits.isDigit
    have hds := hdigits.value_eq
    rw [hvalue]
    generalize Numeral.ofNat d.coefficient = ds at *
    dsimp only
    split
    · rename_i hlen
      have htake : ds.take (ds.length - (k + 1)) ≠ [] := by
        apply List.ne_nil_of_length_pos
        rw [List.length_take]
        omega
      have hdrop : ds.drop (ds.length - (k + 1)) ≠ [] := by
        apply List.ne_nil_of_length_pos
        rw [List.length_drop]
        omega
      have hplaces := Decimal.mantissa_of_digits htake hdrop (by rwa [List.take_append_drop])
      rw [List.take_append_drop, hds, List.length_drop,
        show ds.length - (ds.length - (k + 1)) = k + 1 by omega] at hplaces
      exact .plain hplaces
    · rename_i hlen
      have hzeros : ∀ c ∈ ['0'] ++ (List.replicate (k + 1 - ds.length) '0' ++ ds),
          c.isDigit = true := by
        intro c hc
        simp only [List.cons_append, List.nil_append, List.mem_cons, List.mem_append,
          List.mem_replicate] at hc
        rcases hc with rfl | ⟨-, rfl⟩ | hc
        · rfl
        · rfl
        · exact hdigit c hc
      have hplaces := Decimal.mantissa_of_digits (by simp) (by simp [hdigits.ne_nil]) hzeros
      rw [← List.append_assoc, Numeral.value_append, Numeral.value_replicate_zero, hds,
        List.length_append, List.length_replicate,
        show k + 1 - ds.length + ds.length = k + 1 by omega] at hplaces
      have hzero : Numeral.value ['0'] = 0 := rfl
      rw [hzero, Nat.zero_mul, Nat.zero_mul, Nat.zero_add] at hplaces
      exact .plain hplaces

end FloatLayout

/-! ## Displayed floats -/

section Displayed

variable {x : Float}

theorem displayFloat_of_not_isNegative (hfinite : x.isFinite = true)
    (hsign : Binary64.isNegative x = false) :
    displayFloat x =
      FloatLayout.display.positionalText (Decimal.shortest .up (Binary64.magnitudeBits x)) := by
  have hlt := Binary64.isFinite_iff.mp hfinite
  unfold displayFloat FloatLayout.text
  rw [Binary64.isNaN_eq_false_of_isFinite hfinite, hsign]
  simp [hlt.ne, FloatLayout.decimalText, FloatLayout.display]

/-- A displayed float without sign bit is a literal that rounds to the float. -/
theorem displayFloat_literal (hfinite : x.isFinite = true)
    (hsign : Binary64.isNegative x = false) : ∃ q, Literal (displayFloat x) q ∧ RoundsTo q x := by
  have hlt := Binary64.isFinite_iff.mp hfinite
  rw [displayFloat_of_not_isNegative hfinite hsign]
  refine ⟨_, FloatLayout.positionalText_literal rfl _, Decimal.roundsTo_value_iff.mpr ?_⟩
  rw [Decimal.toFloat, Decimal.nearestBits_shortest .up hlt.le,
    Binary64.ofMagnitude_magnitudeBits hsign]

theorem displayFloat_of_isNegative (hfinite : x.isFinite = true)
    (hsign : Binary64.isNegative x = true) : ∃ body, displayFloat x = '-' :: body := by
  unfold displayFloat FloatLayout.text
  rw [Binary64.isNaN_eq_false_of_isFinite hfinite, hsign]
  exact ⟨_, rfl⟩

end Displayed

end Specimen
