import Specimen.Proofs.FloatDraws
import Specimen.Proofs.ReadModels
import Specimen.Proofs.RecordStream

/-!
# When nothing can be drawn

A value of a field type fails to be drawn in one case only, whatever the source: the type is a range
of floats whose distance is infinite (`value_error_iff`). No type string denotes such a range, so no
model that is given to a generator has one, and records and batches are drawn from every state of
the source (`only_wide_floats_fail`).
-/

namespace Specimen

open Binary64

/-- The bounds of the range are in order and lie further apart than any float says. -/
def FloatRange.IsTooWide (range : FloatRange) : Prop :=
  range.min < range.max ∧ (range.max - range.min).isInf = true

namespace Draw

/-- A float range has floats to draw unless its distance is infinite. -/
theorem float_error_iff {σ : Type} [RandomSource σ] (range : FloatRange) (s : σ) :
    (∃ cause, Draw.float range.min range.max s = .error cause) ↔ range.IsTooWide := by
  have hdistance := rounds_sub range.finite.2 range.finite.1
  unfold FloatRange.IsTooWide
  rw [hdistance.isInf_iff_not_isFinite]
  by_cases hlt : range.min < range.max
  · by_cases hfinite : (range.max - range.min).isFinite = true
    · rw [float_eq_ok hlt hfinite]
      simp [hfinite]
    · have herror : Draw.float range.min range.max s = .error .unboundedRange := by
        unfold Draw.float
        rw [if_neg (not_max_le_min hlt), range.finite.1, range.finite.2]
        simp [hfinite]
      exact iff_of_true ⟨_, herror⟩ ⟨hlt, Bool.eq_false_iff.mpr hfinite⟩
  · refine iff_of_false ?_ fun h => hlt h.1
    rintro ⟨cause, herror⟩
    have hempty := (not_lt_iff range.finite.1 range.finite.2).mp hlt
    rw [Draw.float, if_pos hempty] at herror
    contradiction

end Draw

namespace Generate

/-- Integers, texts and images are always drawn: the ranges their numbers and counts come from are
in order. -/
theorem value_error_iff {σ : Type} [RandomSource σ] (type : FieldType) (s : σ) :
    (∃ cause, value type s = .error cause) ↔
      ∃ range, type = .float range ∧ range.IsTooWide := by
  by_cases hfloat : ∃ range, type = .float range
  · obtain ⟨range, rfl⟩ := hfloat
    have hvalue : (∃ cause, value (.float range) s = .error cause) ↔
        ∃ cause, Draw.float range.min range.max s = .error cause := by
      rw [value]
      cases Draw.float range.min range.max s <;> simp
    rw [hvalue, Draw.float_error_iff]
    simp
  · obtain ⟨v, s', hv, -⟩ := gives_value (not_exists.mp hfloat) s
    refine iff_of_false ?_ fun h => hfloat (h.imp fun _ => And.left)
    rintro ⟨cause, herror⟩
    rw [hv] at herror
    contradiction

end Generate

/-! ## Given types and models -/

theorem FloatRange.Unsigned.not_isTooWide {range : FloatRange} (h : range.Unsigned) :
    ¬ range.IsTooWide := by
  rintro ⟨-, hinfinite⟩
  have hfinite := isFinite_sub range.finite.2 range.finite.1 h.2 h.1
  rw [(rounds_sub range.finite.2 range.finite.1).isInf_iff_not_isFinite, hfinite] at hinfinite
  contradiction

theorem zero_le_of_not_isNegative {x : Float} (hx : x.isFinite = true)
    (h : isNegative x = false) : 0 ≤ x := by
  have hzero : number 0 = 0 := number_eq_zero (by decide)
  rw [le_iff (by decide) hx, hzero]
  exact number_nonneg h

namespace Generator

variable {σ : Type} [RandomSource σ] {g : Generator σ}

/-- A batch has as many records as the volume says, and only the source moves. -/
theorem exists_fetchAll_eq_ok (h : g.model.Denoted) :
    ∃ rs source, g.fetchAll = .ok (rs, { g with source }) ∧ rs.length = g.volume.toNat := by
  obtain ⟨hmodel, hvolume⟩ := model_volume_after h g.volume.toNat
  have hloop := fetchManyOnto_after h id g.volume.toNat 0 []
  rw [List.map_id, List.reverse_nil, List.nil_append, Nat.zero_add] at hloop
  refine ⟨g.block 0 g.volume.toNat, (g.after g.volume.toNat).source, ?_, ?_⟩
  · have hleft : g.after g.volume.toNat = { g with source := (g.after g.volume.toNat).source } := by
      generalize g.after g.volume.toNat = left at hmodel hvolume ⊢
      cases left
      simp only at hmodel hvolume
      rw [hmodel, hvolume]
    rw [← hleft]
    exact hloop
  · rw [block, List.length_map, List.length_range]

end Generator

/-- A value fails to be drawn exactly for the float ranges that are too wide, from any source. The
bounds that a type string denotes are not negative, and their range is not too wide. A model that is
given to a generator, whatever the volume and the source, gives a record and a batch. -/
theorem Generator.only_wide_floats_fail :
    (∀ {σ : Type} [RandomSource σ] (type : FieldType) (s : σ),
      (∃ cause, Generate.value type s = .error cause) ↔
        ∃ range, type = .float range ∧ range.IsTooWide) ∧
      (∀ (typeString : String) (range : FloatRange),
        FieldType.parse typeString = .ok (.float range) →
          (0 ≤ range.min ∧ 0 ≤ range.max) ∧ ¬ range.IsTooWide) ∧
      ∀ {σ : Type} [RandomSource σ] (model : Model), model.Given →
        ∀ (volume : UInt64) (source : σ),
          let g : Generator σ := ⟨model, volume, source⟩
          (∃ r source', g.fetch = .ok (r, { g with source := source' })) ∧
            ∃ rs source', g.fetchAll = .ok (rs, { g with source := source' }) ∧
              rs.length = volume.toNat := by
  refine ⟨Generate.value_error_iff, fun typeString range hparse => ?_,
    fun model hgiven volume source => ?_⟩
  · have hunsigned : range.Unsigned := FieldType.denoted_of_parse hparse
    exact ⟨⟨zero_le_of_not_isNegative range.finite.1 hunsigned.1,
      zero_le_of_not_isNegative range.finite.2 hunsigned.2⟩, hunsigned.not_isTooWide⟩
  · intro g
    have hdenoted : g.model.Denoted := hgiven.denoted
    exact ⟨exists_fetch_eq_ok hdenoted, exists_fetchAll_eq_ok hdenoted⟩

/-- All finite floats. -/
def FloatRange.allFinite : FloatRange :=
  ⟨Float.ofBits 0xFFEFFFFFFFFFFFFF, Float.ofBits 0x7FEFFFFFFFFFFFFF, by decide +kernel,
    by decide +kernel⟩

/-- From all finite floats nothing is drawn; from zero to one, and for the standard model, there is
always a result. -/
theorem Generator.fetch_standard_not_all_finite :
    (∃ cause, Generate.value (.float .allFinite) (Script.ofWords [7]) = .error cause) ∧
      ¬ FloatRange.unitInterval.IsTooWide ∧
      ∃ rs source', (⟨.standard, 20, Script.ofWords [7]⟩ : Generator Script).fetchAll =
        .ok (rs, ⟨.standard, 20, source'⟩) ∧ rs.length = 20 := by
  have hwide : FloatRange.allFinite.IsTooWide := by
    constructor <;> decide +kernel
  have hparse : FieldType.parse "f" = .ok (.float .unitInterval) := rfl
  exact ⟨(only_wide_floats_fail.1 _ _).mpr ⟨_, rfl, hwide⟩,
    (only_wide_floats_fail.2.1 _ _ hparse).2,
    (only_wide_floats_fail.2.2 .standard .standard 20 (Script.ofWords [7])).2⟩

end Specimen
