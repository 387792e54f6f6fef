import Mathlib
import Specimen.Proofs.Magnitude

/-!
# Floats and their bit patterns

The logical float is a bit pattern, and its operations unpack the pattern into sign, mantissa and
exponent. The unpacked form is the one that `mantissa` and `exponent` read off the pattern
(`unpack_eq_finite`). Below infinity a pattern without sign is the same as a finite float without
sign (`magnitudeBits_ofMagnitude`, `ofMagnitude_magnitudeBits`).
-/

namespace Specimen.Binary64

open Float.Model (Format UnpackedFloat)
open Float.Model.UnpackedFloat

/-! ## The fields of a pattern -/

section Fields

variable (b : BitVec Format.binary64.numBits)

theorem toNat_unpackMantissa : (unpackMantissa b).toNat = b.toNat % exponentStep := by
  simp [unpackMantissa, BitVec.extractLsb_toNat, exponentStep]

theorem mod_signBit_mod_exponentStep (n : Nat) : n % signBit % exponentStep = n % exponentStep :=
  Nat.mod_mod_of_dvd n (by decide)

theorem toNat_unpackExponent : (unpackExponent b).toNat = b.toNat % signBit / exponentStep := by
  have hsplit : b.toNat % (exponentStep * 2048) / exponentStep = b.toNat / exponentStep % 2048 :=
    Nat.mod_mul_right_div_self ..
  rw [show signBit = exponentStep * 2048 from rfl, hsplit]
  simp [unpackExponent, BitVec.extractLsb_toNat, exponentStep, Nat.shiftRight_eq_div_pow]

theorem toNat_unpackSign : (unpackSign b).toNat = b.toNat / signBit := by
  have hlt : b.toNat < 2 ^ 64 := b.isLt
  have hbit : b.toNat / signBit < 2 := (Nat.div_lt_iff_lt_mul (by decide)).mpr hlt
  rw [← Nat.mod_eq_of_lt hbit]
  simp [unpackSign, BitVec.extractLsb_toNat, signBit, Nat.shiftRight_eq_div_pow]

end Fields

/-! ## Unpacking and packing -/

theorem unpackExponent_eq_neg_one_iff (b : BitVec Format.binary64.numBits) :
    unpackExponent b = -1#_ ↔ infinityBits ≤ b.toNat % signBit := by
  have hpos := exponentStep_pos
  have hlt : b.toNat % signBit < 2048 * exponentStep := Nat.mod_lt _ (by decide)
  have hdiv : b.toNat % signBit / exponentStep < 2048 := (Nat.div_lt_iff_lt_mul hpos).mpr hlt
  have hones : (-BitVec.ofNat Format.binary64.exponentBits 1).toNat = 2047 := by decide
  rw [← BitVec.toNat_inj, toNat_unpackExponent, hones,
    show infinityBits = 2047 * exponentStep from rfl, ← Nat.le_div_iff_mul_le hpos]
  omega

theorem unpackExponent_eq_zero_iff (b : BitVec Format.binary64.numBits) :
    unpackExponent b = 0#_ ↔ b.toNat % signBit / exponentStep = 0 := by
  rw [← BitVec.toNat_inj, toNat_unpackExponent]
  rfl

theorem unpackMantissa_eq_zero_iff (b : BitVec Format.binary64.numBits) :
    unpackMantissa b = 0#_ ↔ b.toNat % signBit % exponentStep = 0 := by
  rw [← BitVec.toNat_inj, toNat_unpackMantissa, mod_signBit_mod_exponentStep]
  rfl

theorem mantissa_pos {bits : Nat} (h : bits ≠ 0) : 0 < mantissa bits := by
  have hsum := eq_steps_add_mantissa bits
  rcases steps_eq_zero_or_le_mantissa bits with hs | hm
  · rw [hs] at hsum
    omega
  · exact Nat.lt_of_lt_of_le exponentStep_pos hm

/-- A finite pattern unpacks to the mantissa and the exponent of its magnitude. -/
theorem unpack_eq_finite {b : BitVec Format.binary64.numBits} (hne : b.toNat % signBit ≠ 0)
    (hlt : b.toNat % signBit < infinityBits) :
    unpack .binary64 b = .finite (.ofBitVec (unpackSign b)) (mantissa (b.toNat % signBit))
      (exponent (b.toNat % signBit)) (mantissa_pos hne) := by
  have hbias : (Format.binary64.exponentBias : Int) + Format.binary64.mantissaBitsWithoutImplicit =
      1075 := by decide
  have hones : unpackExponent b ≠ -1#_ := by
    rw [Ne, unpackExponent_eq_neg_one_iff]
    omega
  unfold unpack
  simp only [hones, if_false, hbias]
  by_cases hsub : b.toNat % signBit / exponentStep = 0
  · have hmod : b.toNat % signBit % exponentStep = b.toNat % signBit := by
      rw [Nat.mod_eq_of_lt]
      exact (Nat.div_eq_zero_iff_lt exponentStep_pos).mp hsub
    have hmant : unpackMantissa b ≠ 0#_ := by
      rwa [Ne, unpackMantissa_eq_zero_iff, hmod]
    have hval : (unpackMantissa b).toNat = mantissa (b.toNat % signBit) := by
      rw [toNat_unpackMantissa, mantissa, if_pos hsub, ← hmod, mod_signBit_mod_exponentStep]
    have hexp : ((unpackExponent b).toNat : Int) - 1075 + 1 = exponent (b.toNat % signBit) := by
      rw [toNat_unpackExponent, exponent, if_pos hsub, hsub]
      rfl
    rw [if_pos ((unpackExponent_eq_zero_iff b).mpr hsub), dif_neg hmant]
    simp only [hval, hexp]
  · have hval : (1#1 ++ unpackMantissa b).toNat = mantissa (b.toNat % signBit) := by
      rw [BitVec.toNat_append, ← Nat.shiftLeft_add_eq_or_of_lt (unpackMantissa b).isLt, mantissa,
        if_neg hsub, toNat_unpackMantissa, mod_signBit_mod_exponentStep]
      rfl
    have hexp : ((unpackExponent b).toNat : Int) - 1075 = exponent (b.toNat % signBit) := by
      rw [toNat_unpackExponent, exponent, if_neg hsub, minExponent]
      omega
    rw [if_neg (mt (unpackExponent_eq_zero_iff b).mp hsub)]
    simp only [hval, hexp]

theorem unpack_eq_zero {b : BitVec Format.binary64.numBits} (h : b.toNat % signBit = 0) :
    unpack .binary64 b = .zero (.ofBitVec (unpackSign b)) := by
  have hones : unpackExponent b ≠ -1#_ := by
    rw [Ne, unpackExponent_eq_neg_one_iff, h]
    decide
  have hexp : unpackExponent b = 0#_ := by
    rw [unpackExponent_eq_zero_iff, h]
    rfl
  have hmant : unpackMantissa b = 0#_ := by
    rw [unpackMantissa_eq_zero_iff, h]
    rfl
  unfold unpack
  simp only [hexp, hmant, dif_pos]
  rfl

theorem unpack_eq_infinity {b : BitVec Format.binary64.numBits}
    (h : b.toNat % signBit = infinityBits) :
    unpack .binary64 b = .infinity (.ofBitVec (unpackSign b)) := by
  have hones : unpackExponent b = -1#_ := (unpackExponent_eq_neg_one_iff b).mpr h.ge
  have hmant : unpackMantissa b = 0#_ := by
    rw [unpackMantissa_eq_zero_iff, h]
    rfl
  unfold unpack
  simp only [hones, hmant, if_true]

theorem unpack_eq_notANumber {b : BitVec Format.binary64.numBits}
    (h : infinityBits < b.toNat % signBit) : unpack .binary64 b = .notANumber := by
  have hones : unpackExponent b = -1#_ := (unpackExponent_eq_neg_one_iff b).mpr h.le
  have hlt : b.toNat % signBit < signBit := Nat.mod_lt _ (by decide)
  have hmant : unpackMantissa b ≠ 0#_ := by
    rw [Ne, unpackMantissa_eq_zero_iff]
    simp only [infinityBits, signBit, exponentStep] at *
    omega
  unfold unpack
  simp only [hones, hmant, if_true, if_false]

/-! ## Floats -/

/-- The bits of a float, as the vector that the operations unpack. -/
theorem unpack_toModel (x : Float) : x.toModel.unpack = unpack .binary64 x.toBits.toBitVec := rfl

theorem isFinite_iff {x : Float} : x.isFinite = true ↔ magnitudeBits x < infinityBits := by
  have hbits : x.toBits.toBitVec.toNat % signBit = magnitudeBits x := rfl
  unfold Float.isFinite Float.Model.isFinite
  rw [unpack_toModel]
  rcases Nat.lt_trichotomy (magnitudeBits x) infinityBits with hlt | heq | hgt
  · by_cases hne : magnitudeBits x = 0
    · rw [unpack_eq_zero hne]
      simpa [UnpackedFloat.isFinite] using hlt
    · rw [unpack_eq_finite hne hlt]
      simpa [UnpackedFloat.isFinite] using hlt
  · rw [unpack_eq_infinity heq]
    simp [UnpackedFloat.isFinite, heq]
  · rw [unpack_eq_notANumber hgt]
    simp [UnpackedFloat.isFinite, hgt.le]

theorem isNaN_eq_false_of_isFinite {x : Float} (h : x.isFinite = true) : x.isNaN = false := by
  unfold Float.isFinite Float.Model.isFinite at h
  unfold Float.isNaN Float.Model.isNaN
  cases hu : x.toModel.unpack with
  | notANumber =>
    rw [hu] at h
    exact absurd h (by decide)
  | infinity s => rfl
  | zero s => rfl
  | finite s m e hm => rfl

/-- The bits of a magnitude are kept by the float that is made of them. -/
theorem toNat_toBits_ofMagnitude {bits : Nat} (h : bits ≤ infinityBits) :
    (ofMagnitude bits).toBits.toNat = bits := by
  have hlt : bits < 2 ^ 64 := Nat.lt_of_le_of_lt h (by decide)
  have hnat : (UInt64.ofNat bits).toBitVec.toNat = bits := by
    simp only [UInt64.toNat_toBitVec]
    exact UInt64.toNat_ofNat_of_lt hlt
  have hmag : (UInt64.ofNat bits).toBitVec.toNat % signBit = bits := by
    rw [hnat]
    exact Nat.mod_eq_of_lt (Nat.lt_of_le_of_lt h infinityBits_lt_signBit)
  have hvalid : Format.binary64.Valid (UInt64.ofNat bits).toBitVec := by
    refine ⟨fun hexp hmant => ?_⟩
    have hge := (unpackExponent_eq_neg_one_iff _).mp hexp
    rw [Ne, unpackMantissa_eq_zero_iff, hmag] at hmant
    rw [hmag] at hge
    rw [Nat.le_antisymm h hge] at hmant
    exact absurd rfl hmant
  have hpack := pack_unpack_of_valid hvalid
  simp only [ofMagnitude, Float.toBits, Float.ofBits, Float.Model.ofBits, Float.Model.pack, hpack]
  exact hnat

theorem magnitudeBits_ofMagnitude {bits : Nat} (h : bits ≤ infinityBits) :
    magnitudeBits (ofMagnitude bits) = bits := by
  rw [magnitudeBits, toNat_toBits_ofMagnitude h]
  exact Nat.mod_eq_of_lt (Nat.lt_of_le_of_lt h infinityBits_lt_signBit)

theorem isNegative_ofMagnitude {bits : Nat} (h : bits ≤ infinityBits) :
    isNegative (ofMagnitude bits) = false := by
  have hlt : bits < signBit := Nat.lt_of_le_of_lt h infinityBits_lt_signBit
  rw [isNegative, toNat_toBits_ofMagnitude h]
  simpa using hlt

theorem ofMagnitude_magnitudeBits {x : Float} (h : isNegative x = false) :
    ofMagnitude (magnitudeBits x) = x := by
  have hlt : x.toBits.toNat < signBit := by simpa [isNegative] using h
  rw [magnitudeBits, Nat.mod_eq_of_lt hlt, ofMagnitude, UInt64.ofNat_toNat, Float.ofBits_toBits]

end Specimen.Binary64
