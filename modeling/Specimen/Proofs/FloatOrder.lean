import Specimen.Proofs.Encoding

/-!
# Comparing floats as numbers

A finite float is a rational number with a sign (`number`). Comparing two finite floats compares
their numbers (`compare_eq`): the two zeros are equal, and otherwise the sign decides, then the
exponent, then the mantissa.
-/

namespace Specimen.Binary64

open Float.Model (Format UnpackedFloat)
open Float.Model.UnpackedFloat

/-- The number of a finite float. -/
def number (x : Float) : ℚ :=
  if isNegative x then -value (magnitudeBits x) else value (magnitudeBits x)

/-- The sign of a float in its unpacked form. -/
def sign (x : Float) : Sign :=
  if isNegative x then .negative else .positive

theorem sign_eq (x : Float) :
    Sign.ofBitVec (@unpackSign .binary64 x.toBits.toBitVec) = sign x := by
  have hbit := toNat_unpackSign x.toBits.toBitVec
  rw [UInt64.toNat_toBitVec] at hbit
  have hzero : @unpackSign .binary64 x.toBits.toBitVec = 0#1 ↔ ¬ signBit ≤ x.toBits.toNat := by
    rw [← BitVec.toNat_inj, hbit, BitVec.toNat_zero, Nat.div_eq_zero_iff_lt (by decide), Nat.not_le]
  unfold Sign.ofBitVec sign isNegative
  by_cases hneg : signBit ≤ x.toBits.toNat
  · rw [if_neg (fun h => hzero.mp h hneg), if_pos (decide_eq_true hneg)]
  · rw [if_pos (hzero.mpr hneg), if_neg (by simpa using hneg)]

/-- The unpacked form of a finite float. -/
theorem unpack_cases {x : Float} (h : x.isFinite = true) :
    (magnitudeBits x = 0 ∧ x.toModel.unpack = .zero (sign x)) ∨
      ∃ hne : magnitudeBits x ≠ 0, x.toModel.unpack =
        .finite (sign x) (mantissa (magnitudeBits x)) (exponent (magnitudeBits x))
          (mantissa_pos hne) := by
  rw [unpack_toModel, ← sign_eq]
  by_cases hne : magnitudeBits x = 0
  · exact Or.inl ⟨hne, unpack_eq_zero hne⟩
  · exact Or.inr ⟨hne, unpack_eq_finite hne (isFinite_iff.mp h)⟩

/-- Magnitudes are ordered by their exponents, then by their mantissas. -/
theorem compare_exponent_then_mantissa (a b : Nat) :
    (compare (exponent a) (exponent b)).then (compare (mantissa a) (mantissa b)) =
      compare a b := by
  have ha := eq_steps_add_mantissa a
  have hb := eq_steps_add_mantissa b
  have hma := mantissa_lt a
  have hmb := mantissa_lt b
  rw [exponent_eq_steps, exponent_eq_steps]
  rcases Nat.lt_trichotomy (steps a) (steps b) with hlt | heq | hgt
  · have hmul := Nat.mul_le_mul_right exponentStep (Nat.succ_le_of_lt hlt)
    have hfill := (steps_eq_zero_or_le_mantissa b).resolve_left (by omega)
    rw [Nat.succ_mul] at hmul
    rw [compare_lt_iff_lt.mpr (by omega), compare_lt_iff_lt.mpr (by omega : a < b)]
    rfl
  · rw [heq] at ha
    rw [heq, compare_eq_iff_eq.mpr rfl, Ordering.then]
    rcases Nat.lt_trichotomy (mantissa a) (mantissa b) with hlt | heq | hgt
    · rw [compare_lt_iff_lt.mpr hlt, compare_lt_iff_lt.mpr (by omega : a < b)]
    · rw [compare_eq_iff_eq.mpr heq, compare_eq_iff_eq.mpr (by omega : a = b)]
    · rw [compare_gt_iff_gt.mpr hgt, compare_gt_iff_gt.mpr (by omega : b < a)]
  · have hmul := Nat.mul_le_mul_right exponentStep (Nat.succ_le_of_lt hgt)
    have hfill := (steps_eq_zero_or_le_mantissa a).resolve_left (by omega)
    rw [Nat.succ_mul] at hmul
    rw [compare_gt_iff_gt.mpr (by omega), compare_gt_iff_gt.mpr (by omega : b < a)]
    rfl

theorem compare_value (a b : Nat) : compare (value a) (value b) = compare a b := by
  rcases Nat.lt_trichotomy a b with hlt | rfl | hgt
  · rw [compare_lt_iff_lt.mpr hlt, compare_lt_iff_lt.mpr (value_strictMono hlt)]
  · rw [compare_eq_iff_eq.mpr rfl, compare_eq_iff_eq.mpr rfl]
  · rw [compare_gt_iff_gt.mpr hgt, compare_gt_iff_gt.mpr (value_strictMono hgt)]

theorem value_pos {bits : Nat} (h : bits ≠ 0) : 0 < value bits := by
  rw [← value_zero]
  exact value_strictMono (Nat.pos_of_ne_zero h)

theorem compare_neg_value (a b : Nat) :
    compare (-value a) (-value b) = (compare a b).swap := by
  rcases Nat.lt_trichotomy a b with hlt | rfl | hgt
  · rw [compare_lt_iff_lt.mpr hlt, compare_gt_iff_gt.mpr (neg_lt_neg (value_strictMono hlt))]
    rfl
  · rw [compare_eq_iff_eq.mpr rfl, compare_eq_iff_eq.mpr rfl]
    rfl
  · rw [compare_gt_iff_gt.mpr hgt, compare_lt_iff_lt.mpr (neg_lt_neg (value_strictMono hgt))]
    rfl

theorem number_eq_zero {x : Float} (h : magnitudeBits x = 0) : number x = 0 := by
  simp [number, h]

/-- A finite float other than zero, by its sign. -/
theorem sign_cases {x : Float} (hne : magnitudeBits x ≠ 0) :
    (sign x = .positive ∧ number x = value (magnitudeBits x) ∧ 0 < number x) ∨
      (sign x = .negative ∧ number x = -value (magnitudeBits x) ∧ number x < 0) := by
  have hpos := value_pos hne
  unfold sign number
  by_cases hneg : isNegative x = true
  · rw [if_pos hneg, if_pos hneg]
    exact Or.inr ⟨rfl, rfl, neg_neg_of_pos hpos⟩
  · rw [if_neg hneg, if_neg hneg]
    exact Or.inl ⟨rfl, rfl, hpos⟩

/-- Finite floats are compared as numbers. -/
theorem compare_eq {x y : Float} (hx : x.isFinite = true) (hy : y.isFinite = true) :
    x.toModel.unpack.compare y.toModel.unpack = some (compare (number x) (number y)) := by
  rcases unpack_cases hx with ⟨hx0, hux⟩ | ⟨hx0, hux⟩ <;>
    rcases unpack_cases hy with ⟨hy0, huy⟩ | ⟨hy0, huy⟩ <;> rw [hux, huy]
  · rw [number_eq_zero hx0, number_eq_zero hy0, compare_eq_iff_eq.mpr rfl]
    cases sign x <;> cases sign y <;> rfl
  · rw [number_eq_zero hx0]
    rcases sign_cases hy0 with ⟨hs, -, hlt⟩ | ⟨hs, -, hlt⟩ <;> rw [hs]
    · rw [compare_lt_iff_lt.mpr hlt]
      cases sign x <;> rfl
    · rw [compare_gt_iff_gt.mpr hlt]
      cases sign x <;> rfl
  · rw [number_eq_zero hy0]
    rcases sign_cases hx0 with ⟨hs, -, hlt⟩ | ⟨hs, -, hlt⟩ <;> rw [hs]
    · rw [compare_gt_iff_gt.mpr hlt]
      cases sign y <;> rfl
    · rw [compare_lt_iff_lt.mpr hlt]
      cases sign y <;> rfl
  · have hlex := compare_exponent_then_mantissa (magnitudeBits x) (magnitudeBits y)
    rcases sign_cases hx0 with ⟨hsx, hnx, hltx⟩ | ⟨hsx, hnx, hltx⟩ <;>
      rcases sign_cases hy0 with ⟨hsy, hny, hlty⟩ | ⟨hsy, hny, hlty⟩ <;> rw [hsx, hsy]
    · rw [hnx, hny, compare_value, ← hlex]
      rfl
    · rw [compare_gt_iff_gt.mpr (hlty.trans hltx)]
      rfl
    · rw [compare_lt_iff_lt.mpr (hltx.trans hlty)]
      rfl
    · rw [hnx, hny, compare_neg_value, ← hlex]
      rfl

/-! ## Equality -/

theorem beq_iff {x y : Float} (hx : x.isFinite = true) (hy : y.isFinite = true) :
    (x == y) = true ↔ number x = number y := by
  change (x.toModel.unpack.compare y.toModel.unpack == some .eq) = true ↔ _
  rw [compare_eq hx hy, ← compare_eq_iff_eq]
  simp

/-- Without sign bits, floats that are equal as numbers are the same float. -/
theorem eq_of_beq {x y : Float} (hx : x.isFinite = true) (hy : y.isFinite = true)
    (hxs : isNegative x = false) (hys : isNegative y = false) (h : (x == y) = true) : x = y := by
  have hnumber := (beq_iff hx hy).mp h
  unfold number at hnumber
  rw [hxs, hys] at hnumber
  have hbits := value_strictMono.injective hnumber
  rw [← ofMagnitude_magnitudeBits hxs, hbits, ofMagnitude_magnitudeBits hys]

end Specimen.Binary64
