import Specimen.Proofs.FloatOrder
import Specimen.Proofs.Rounding

/-!
# Rounding an unpacked number

The operations on floats compute a mantissa of any length with two bits for what lies below it,
shift it to the exponent of the format, round it there and pack the result. The mantissa and its
bits describe one number throughout (`Describes.shift`), so the packed float is the one nearest to
that number, with its sign (`rounds_roundWithAccuracy`).
-/

namespace Specimen.Binary64

open Float.Model (Format UnpackedFloat totalExponent)
open Float.Model.UnpackedFloat

/-! ## A mantissa and the bits below it -/

/-- The mantissa is the integer part of a number, and the bits say whether the rest is zero, less
than one half, one half or more. -/
def Describes : ExtendedMantissa → ℚ → Prop
  | ⟨m, false, false⟩, x => x = m
  | ⟨m, false, true⟩, x => m < x ∧ x < m + 1 / 2
  | ⟨m, true, false⟩, x => x = m + 1 / 2
  | ⟨m, true, true⟩, x => m + 1 / 2 < x ∧ x < m + 1

namespace Describes

variable {em : ExtendedMantissa} {x : ℚ}

theorem floor (h : Describes em x) : (em.mantissa : ℚ) ≤ x ∧ x < em.mantissa + 1 := by
  obtain ⟨m, roundBit, stickyBit⟩ := em
  cases roundBit <;> cases stickyBit <;> simp only [Describes] at h ⊢ <;>
    constructor <;> linarith

/-- Shifting by one bit halves the number: the lowest bit of the mantissa becomes the round bit. -/
theorem shiftRightOne (h : Describes em x) : Describes em.shiftRightOne (x / 2) := by
  obtain ⟨m, roundBit, stickyBit⟩ := em
  have hsplit : (m : ℚ) = 2 * (m / 2 : Nat) + (m % 2 : Nat) := by
    exact_mod_cast (Nat.div_add_mod m 2).symm
  unfold ExtendedMantissa.shiftRightOne
  rcases Nat.mod_two_eq_zero_or_one m with hbit | hbit
  · have heven : (m % 2 != 0) = false := by rw [hbit]; rfl
    rw [hbit, Nat.cast_zero, add_zero] at hsplit
    simp only [heven]
    cases roundBit <;> cases stickyBit <;> simp only [Describes, Bool.or_self, Bool.or_true,
      Bool.or_false] at h ⊢
    · linarith
    · constructor <;> linarith
    · constructor <;> linarith
    · constructor <;> linarith
  · have hodd : (m % 2 != 0) = true := by rw [hbit]; rfl
    rw [hbit, Nat.cast_one] at hsplit
    simp only [hodd]
    cases roundBit <;> cases stickyBit <;> simp only [Describes, Bool.or_self, Bool.or_true,
      Bool.or_false] at h ⊢
    · linarith
    · constructor <;> linarith
    · constructor <;> linarith
    · constructor <;> linarith

theorem shift (h : Describes em x) (n : Nat) : Describes (em >>> n) (x / 2 ^ n) := by
  induction n with
  | zero =>
    rw [pow_zero, div_one]
    exact h
  | succ n ih =>
    rw [pow_succ, ← div_div]
    exact ih.shiftRightOne

theorem roundsHalfEven (h : Describes em x) : RoundsHalfEven x em.mantissa em.roundedMantissa := by
  obtain ⟨m, roundBit, stickyBit⟩ := em
  cases roundBit <;> cases stickyBit <;> simp only [Describes] at h
  · refine Or.inl ⟨rfl, by linarith, fun htie => ?_⟩
    linarith
  · refine Or.inl ⟨rfl, by linarith, fun htie => ?_⟩
    linarith
  · -- A tie: the lowest bit of the mantissa says which neighbour is even.
    rcases Nat.mod_two_eq_zero_or_one m with hbit | hbit
    · refine Or.inl ⟨?_, by linarith, fun _ => hbit⟩
      show m + m % 2 = m
      rw [hbit, Nat.add_zero]
    · have hnext : (m + 1) % 2 = 0 := by omega
      refine Or.inr ⟨?_, by linarith, fun _ => hnext⟩
      show m + m % 2 = m + 1
      rw [hbit]
  · refine Or.inr ⟨rfl, by linarith, fun htie => ?_⟩
    linarith

end Describes

theorem describes_exact (m : Nat) : Describes (.ofMantissaAndAccuracy m .exact) m :=
  rfl

@[simp]
theorem mantissa_ofMantissaAndAccuracy (m : Nat) (accuracy : Accuracy) :
    (ExtendedMantissa.ofMantissaAndAccuracy m accuracy).mantissa = m := by
  cases accuracy with
  | exact => rfl
  | inexact order => cases order <;> rfl

/-! ## Packing -/

/-- The float of an unpacked number. -/
def ofUnpacked (u : UnpackedFloat) : Float :=
  .ofModel (.pack u)

/-- The float of an unpacked number has a sign and the bits of a magnitude. -/
structure Packs (u : UnpackedFloat) (s : Sign) (bits : Nat) : Prop where
  magnitude : magnitudeBits (ofUnpacked u) = bits
  negative_iff : isNegative (ofUnpacked u) = true ↔ s = .negative

theorem toNat_packComponents (s : Sign) (e : BitVec 11) (m : BitVec 52) :
    (packComponents .binary64 s e m).toNat =
      s.toBitVec.toNat * signBit + e.toNat * exponentStep + m.toNat := by
  have hexponent := e.isLt
  have hmantissa := m.isLt
  have happend : packComponents .binary64 s e m = (s.toBitVec ++ e ++ m : BitVec 64) := rfl
  rw [happend, BitVec.toNat_append, BitVec.toNat_append,
    ← Nat.shiftLeft_add_eq_or_of_lt hmantissa, ← Nat.shiftLeft_add_eq_or_of_lt hexponent,
    Nat.shiftLeft_eq, Nat.shiftLeft_eq, signBit, exponentStep]
  omega

theorem packs_of_components {u : UnpackedFloat} {s : Sign} {e : BitVec 11} {m : BitVec 52}
    (h : pack .binary64 u = packComponents .binary64 s e m) :
    Packs u s (e.toNat * exponentStep + m.toNat) := by
  have hexponent := e.isLt
  have hmantissa := m.isLt
  have hbits : (ofUnpacked u).toBits.toNat =
      s.toBitVec.toNat * signBit + (e.toNat * exponentStep + m.toNat) := by
    rw [← Nat.add_assoc, ← toNat_packComponents, ← h]
    rfl
  have hlt : e.toNat * exponentStep + m.toNat < signBit := by
    simp only [exponentStep, signBit]
    omega
  constructor
  · rw [magnitudeBits, hbits, Nat.add_comm, Nat.add_mul_mod_self_right, Nat.mod_eq_of_lt hlt]
  · rw [isNegative, hbits, decide_eq_true_iff]
    cases s with
    | negative =>
      rw [show (Sign.toBitVec .negative).toNat = 1 from rfl]
      simp only [iff_true]
      omega
    | positive =>
      rw [show (Sign.toBitVec .positive).toNat = 0 from rfl]
      simp only [reduceCtorEq, iff_false]
      omega

theorem packs_zero (s : Sign) : Packs (.zero s) s 0 :=
  packs_of_components (show pack .binary64 (.zero s) = packComponents .binary64 s 0 0 from rfl)

section Finite

variable {m k : Nat} {e : Int} (hm : 0 < m) (he : e = k + minExponent)

theorem log2_lt_iff_lt_exponentStep (hm : 0 < m) : m.log2 < 52 ↔ m < exponentStep := by
  rw [exponentStep_eq]
  exact Nat.log2_lt hm.ne'

theorem log2_eq_of_fills (hlt : m < 2 * exponentStep) (hfills : exponentStep ≤ m) :
    m.log2 = 52 := by
  have hpos : 0 < m := Nat.lt_of_lt_of_le exponentStep_pos hfills
  have hlo : ¬ m.log2 < 52 := by
    rw [log2_lt_iff_lt_exponentStep hpos]
    exact Nat.not_lt.mpr hfills
  rw [exponentStep_eq, ← pow_succ'] at hlt
  have hhi := (Nat.log2_lt hpos.ne').mpr hlt
  omega

theorem mod_exponentStep_of_fills (hlt : m < 2 * exponentStep) (hfills : exponentStep ≤ m) :
    m % exponentStep = m - exponentStep := by
  rw [Nat.mod_eq_sub_mod hfills, Nat.mod_eq_of_lt]
  omega

include he

/-- The stored exponent is one more than the steps from the least one. -/
theorem biasedExponent_eq : (e + (Format.binary64.exponentBias : Int) +
    Format.binary64.mantissaBitsWithoutImplicit).toNat = k + 1 := by
  have hbias : (Format.binary64.exponentBias : Int) + Format.binary64.mantissaBitsWithoutImplicit =
      1075 := by decide
  rw [Int.add_assoc, hbias, he, minExponent]
  omega

theorem packs_overflow (hk : 2046 ≤ k) (s : Sign) : Packs (.finite s m e hm) s infinityBits := by
  have hbiased := biasedExponent_eq he
  have hfull : 2 ^ Format.binary64.exponentBits ≤ k + 1 + 1 := by
    change 2 ^ 11 ≤ k + 1 + 1
    omega
  have hpack : pack .binary64 (.finite s m e hm) = packComponents .binary64 s (-1#_) 0 := by
    unfold pack
    simp only [hbiased]
    rw [if_pos hfull]
    rfl
  have hones : (-BitVec.ofNat 11 1).toNat * exponentStep + (0 : BitVec 52).toNat =
      infinityBits := by decide
  exact hones ▸ packs_of_components hpack

theorem packs_normal (hk : k < 2046) (hlt : m < 2 * exponentStep) (hfills : exponentStep ≤ m)
    (s : Sign) : Packs (.finite s m e hm) s (k * exponentStep + m) := by
  have hbiased := biasedExponent_eq he
  have hroom : ¬ 2 ^ Format.binary64.exponentBits ≤ k + 1 + 1 := by
    change ¬ 2 ^ 11 ≤ k + 1 + 1
    omega
  have hlog := log2_eq_of_fills hlt hfills
  have hpack : pack .binary64 (.finite s m e hm) =
      packComponents .binary64 s (BitVec.ofNat 11 (k + 1)) (BitVec.ofNat 52 m) := by
    unfold pack
    simp only [hbiased]
    rw [if_neg hroom, if_pos (by rw [hlog]; rfl)]
  have hpacks := packs_of_components hpack
  rw [BitVec.toNat_ofNat, BitVec.toNat_ofNat, Nat.mod_eq_of_lt (by omega : k + 1 < 2 ^ 11),
    ← exponentStep_eq] at hpacks
  -- The highest bit of the mantissa is not stored: it is the one that the exponent has more.
  rwa [mod_exponentStep_of_fills hlt hfills, Nat.succ_mul, Nat.add_assoc,
    Nat.add_sub_cancel' hfills] at hpacks

theorem packs_subnormal (hk : k = 0) (hless : m < exponentStep) (s : Sign) :
    Packs (.finite s m e hm) s m := by
  have hbiased := biasedExponent_eq he
  have hroom : ¬ 2 ^ Format.binary64.exponentBits ≤ k + 1 + 1 := by
    rw [hk]
    decide
  have hlog : ¬ m.log2 + 1 = Format.binary64.mantissaBits := by
    have hfew := (log2_lt_iff_lt_exponentStep hm).mpr hless
    change ¬ m.log2 + 1 = 53
    omega
  have hpack : pack .binary64 (.finite s m e hm) =
      packComponents .binary64 s 0#11 (BitVec.ofNat 52 m) := by
    unfold pack
    simp only [hbiased]
    rw [if_neg hroom, if_neg hlog]
  have hpacks := packs_of_components hpack
  rwa [BitVec.toNat_zero, Nat.zero_mul, Nat.zero_add, BitVec.toNat_ofNat, ← exponentStep_eq,
    Nat.mod_eq_of_lt hless] at hpacks

/-- A number with the exponent of the format is packed by steps of the exponent and its mantissa,
or as infinity. -/
theorem packs_finite (hlt : m < 2 * exponentStep) (hfills : k = 0 ∨ exponentStep ≤ m) (s : Sign) :
    Packs (.finite s m e hm) s (min infinityBits (k * exponentStep + m)) := by
  have hbeyond : infinityBits = 2047 * exponentStep := by decide
  rcases Nat.lt_or_ge k 2046 with hk | hk
  · have hsteps := Nat.mul_le_mul_right exponentStep (Nat.le_of_lt_succ hk)
    rw [min_eq_right (by omega)]
    rcases Nat.lt_or_ge m exponentStep with hless | hnormal
    · have hleast := hfills.resolve_right (Nat.not_le.mpr hless)
      have hpacks := packs_subnormal hm he hleast hless s
      rwa [hleast, Nat.zero_mul, Nat.zero_add]
    · exact packs_normal hm he hk hlt hnormal s
  · have hnormal := hfills.resolve_left (by omega)
    have hsteps := Nat.mul_le_mul_right exponentStep hk
    rw [min_eq_left (by omega)]
    exact packs_overflow hm he hk s

end Finite

/-! ## Rounding to the format -/

theorem targetExponent_eq (t : Int) : Format.binary64.targetExponent t = max (t - 53) minExponent :=
  rfl

/-- A magnitude with a sign. -/
def signed : Sign → ℚ → ℚ
  | .negative, q => -q
  | .positive, q => q

/-- The float is the one nearest to a number, with its sign. A zero may have either sign. -/
structure Rounds (q : ℚ) (z : Float) : Prop where
  nearest : IsNearest |q| (magnitudeBits z)
  isNegative_iff : q ≠ 0 → (isNegative z = true ↔ q < 0)

theorem Packs.rounds {u : UnpackedFloat} {s : Sign} {bits : Nat} {q : ℚ} (h : Packs u s bits)
    (hq : 0 ≤ q) (hnear : IsNearest q bits) : Rounds (signed s q) (ofUnpacked u) := by
  constructor
  · rw [h.magnitude]
    cases s with
    | negative => rwa [signed, abs_neg, abs_of_nonneg hq]
    | positive => rwa [signed, abs_of_nonneg hq]
  · intro hne
    rw [h.negative_iff]
    cases s with
    | negative =>
      have hpos : 0 < q := lt_of_le_of_ne hq fun h => hne (by rw [← h]; exact neg_zero)
      simpa [signed] using hpos
    | positive => simpa [signed] using hq

section Target

variable {m : Nat} {e : Int} {accuracy : Accuracy} {x : ℚ} {n k : Nat}
  (hx : Describes (.ofMantissaAndAccuracy m accuracy) x)
  (htarget : Format.binary64.targetExponent (totalExponent m e) = e + n)
  (hk : e + n = k + minExponent)

include hx htarget

/-- Shifted to the exponent of the format, a number has at most 53 bits before the point. -/
theorem mantissa_shift_lt :
    (ExtendedMantissa.ofMantissaAndAccuracy m accuracy >>> n).mantissa < 2 * exponentStep := by
  have hfloor := (hx.shift n).floor.1
  have hbits : m + 1 ≤ 2 ^ 53 * 2 ^ n := by
    rw [← pow_add]
    refine le_trans (Nat.lt_log2_self : m < 2 ^ (m.log2 + 1))
      (Nat.pow_le_pow_right (by decide) ?_)
    rw [targetExponent_eq, totalExponent] at htarget
    omega
  have hxlt : x < 2 ^ 53 * 2 ^ n := by
    have hlt := hx.floor.2
    rw [mantissa_ofMantissaAndAccuracy] at hlt
    exact lt_of_lt_of_le hlt (by exact_mod_cast hbits)
  have hshifted : x / 2 ^ n < 2 ^ 53 := (div_lt_iff₀ (by positivity)).mpr hxlt
  rw [exponentStep_eq, ← pow_succ']
  exact_mod_cast lt_of_le_of_lt hfloor hshifted

include hk

/-- It has no fewer bits, unless the exponent is the least one. -/
theorem le_mantissa_shift : k = 0 ∨
    exponentStep ≤ (ExtendedMantissa.ofMantissaAndAccuracy m accuracy >>> n).mantissa := by
  by_cases hleast : k = 0
  · exact Or.inl hleast
  · refine Or.inr ?_
    have hlog : m.log2 = 52 + n := by
      rw [targetExponent_eq, totalExponent] at htarget
      omega
    have hne : m ≠ 0 := by
      rintro rfl
      rw [Nat.log2_zero] at hlog
      omega
    have hbits : 2 ^ 52 * 2 ^ n ≤ m := by
      rw [← pow_add, ← hlog]
      exact Nat.log2_self_le hne
    have hxge : (2 : ℚ) ^ 52 * 2 ^ n ≤ x := by
      have hge := hx.floor.1
      rw [mantissa_ofMantissaAndAccuracy] at hge
      exact le_trans (by exact_mod_cast hbits) hge
    have hshifted : (2 : ℚ) ^ 52 ≤ x / 2 ^ n := (le_div_iff₀ (by positivity)).mpr hxge
    have hlt := lt_of_le_of_lt hshifted (hx.shift n).floor.2
    rw [exponentStep_eq]
    exact Nat.le_of_lt_succ (by exact_mod_cast hlt)

end Target

theorem log2_two_mul_exponentStep : (2 * exponentStep).log2 = 53 := by
  decide

/-- A rounded mantissa is packed at its exponent; one of 54 bits is shifted once more, which drops
a zero. -/
theorem packs_rounded {r k : Nat} (hr : r ≤ 2 * exponentStep) (hfills : k = 0 ∨ exponentStep ≤ r)
    {t : Int} (ht : t = k + minExponent) (s : Sign) :
    Packs
      (if h : (shiftToTargetExponent .binary64 r t .exact).1.mantissa = 0 then .zero s
        else .finite s (shiftToTargetExponent .binary64 r t .exact).1.mantissa
          (shiftToTargetExponent .binary64 r t .exact).2 (Nat.pos_of_ne_zero h))
      s (min infinityBits (k * exponentStep + r)) := by
  unfold shiftToTargetExponent shiftToExponent
  simp only [targetExponent_eq, totalExponent]
  -- Only rounding up to a power of two gives a mantissa of 54 bits.
  rcases Nat.lt_or_eq_of_le hr with hlt | heq
  · have hlog : r.log2 < 53 := by
      by_cases hzero : r = 0
      · rw [hzero, Nat.log2_zero]
        decide
      · rw [exponentStep_eq, ← pow_succ'] at hlt
        exact (Nat.log2_lt hzero).mpr hlt
    have hn : (max ((r.log2 : Int) + 1 + t - 53) minExponent - t).toNat = 0 := by omega
    have hkeep : (ExtendedMantissa.ofMantissaAndAccuracy r .exact >>> 0).mantissa = r := rfl
    simp only [hn, hkeep, Int.natCast_zero, Int.add_zero]
    split
    · rename_i hzero
      have hk : k = 0 := hfills.resolve_right (by rw [hzero]; decide)
      rw [hzero, hk]
      exact packs_zero s
    · exact packs_finite _ ht hlt hfills s
  · have hn : (max ((r.log2 : Int) + 1 + t - 53) minExponent - t).toNat = 1 := by
      rw [heq, log2_two_mul_exponentStep]
      omega
    have hhalf : (ExtendedMantissa.ofMantissaAndAccuracy r .exact >>> 1).mantissa =
        exponentStep := by
      show r / 2 = exponentStep
      rw [heq]
      omega
    simp only [hn, hhalf]
    rw [dif_neg (by decide : ¬ exponentStep = 0)]
    have hcarry : k * exponentStep + r = (k + 1) * exponentStep + exponentStep := by
      rw [heq]
      ring
    rw [hcarry]
    refine packs_finite _ ?_ (by decide) (Or.inr le_rfl) s
    rw [ht]
    push_cast
    ring

/-- A number whose exponent is at most that of the format is rounded to the nearest float. -/
theorem rounds_roundWithAccuracy {m : Nat} {e : Int} {accuracy : Accuracy} {x : ℚ}
    (hx : Describes (.ofMantissaAndAccuracy m accuracy) x)
    (he : e ≤ Format.binary64.targetExponent (totalExponent m e)) (s : Sign) :
    Rounds (signed s (x * 2 ^ e))
      (ofUnpacked (roundWithAccuracy .binary64 s m e accuracy)) := by
  obtain ⟨n, hn⟩ : ∃ n : Nat, Format.binary64.targetExponent (totalExponent m e) = e + n :=
    ⟨(Format.binary64.targetExponent (totalExponent m e) - e).toNat, by omega⟩
  obtain ⟨k, hk⟩ : ∃ k : Nat, e + n = k + minExponent := by
    refine ⟨(e + n - minExponent).toNat, ?_⟩
    rw [← hn, targetExponent_eq]
    omega
  have hlt := mantissa_shift_lt hx hn
  have hfills := le_mantissa_shift hx hn hk
  have hshift := hx.shift n
  have hround := hshift.roundsHalfEven
  have hnear := isNearest_of_rounded hshift.floor.1 hshift.floor.2 hlt hfills hround
  have hscale : x / 2 ^ n * 2 ^ ((k : Int) + minExponent) = x * 2 ^ e := by
    rw [← hk, zpow_add₀ (by norm_num), zpow_natCast]
    field_simp
  rw [hscale] at hnear
  have hxpos : 0 ≤ x := le_trans (Nat.cast_nonneg _) hx.floor.1
  have hamount : (e + (n : Int) - e).toNat = n := by omega
  have hpacks : Packs (roundWithAccuracy .binary64 s m e accuracy) s
      (min infinityBits (k * exponentStep +
        (ExtendedMantissa.ofMantissaAndAccuracy m accuracy >>> n).roundedMantissa)) := by
    unfold roundWithAccuracy
    rw [shiftToTargetExponent, shiftToExponent, hn]
    simp only [hamount]
    refine packs_rounded ?_ ?_ hk s
    · rcases hround with ⟨h, -⟩ | ⟨h, -⟩ <;> omega
    · rcases hround with ⟨h, -⟩ | ⟨h, -⟩ <;> omega
  exact hpacks.rounds (mul_nonneg hxpos (two_zpow_pos e).le) hnear

end Specimen.Binary64
