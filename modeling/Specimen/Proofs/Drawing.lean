import Specimen.Proofs.Arithmetic
import Specimen.Proofs.Conformance
import Specimen.Proofs.Declarations

/-!
# Models that a record can be drawn for

The one type whose values may fail to be drawn is a float range that is wider than any float. Type
strings cannot denote it: their bounds have no sign bit, so the distance of the bounds is finite. A
model of declarations therefore gives a record from every state of the source
(`exists_fetch_eq_ok`).
-/

namespace Specimen

variable {σ : Type} [RandomSource σ]

/-! ## Values -/

/-- A float is drawn between finite bounds without sign bits. -/
theorem Draw.exists_float_eq_ok {range : FloatRange} (h : range.Unsigned) (s : σ) :
    ∃ x s', Draw.float range.min range.max s = .ok (x, s') := by
  unfold Draw.float
  by_cases hempty : range.max ≤ range.min
  · rw [if_pos hempty]
    exact ⟨_, _, rfl⟩
  · have hdistance := Binary64.isFinite_sub range.finite.2 range.finite.1 h.2 h.1
    rw [if_neg hempty, range.finite.1, range.finite.2, hdistance]
    exact ⟨_, _, rfl⟩

namespace Generate

theorem exists_value_eq_ok {type : FieldType} (h : type.Denoted) (s : σ) :
    ∃ v s', value type s = .ok (v, s') := by
  by_cases hfloat : ∃ range, type = .float range
  · obtain ⟨range, rfl⟩ := hfloat
    obtain ⟨x, s', hx⟩ := Draw.exists_float_eq_ok h s
    exact ⟨.float x, s', by simp [value, hx]⟩
  · obtain ⟨v, s', hv, -⟩ := gives_value (not_exists.mp hfloat) s
    exact ⟨v, s', hv⟩

theorem exists_values_eq_ok {types : List FieldType} (h : ∀ type ∈ types, type.Denoted) (s : σ) :
    ∃ vs s', values types s = .ok (vs, s') := by
  induction types generalizing s with
  | nil => exact ⟨[], s, rfl⟩
  | cons type types ih =>
    obtain ⟨v, s₁, hv⟩ := exists_value_eq_ok (h type (List.mem_cons_self ..)) s
    obtain ⟨vs, s₂, hvs⟩ := ih (fun t ht => h t (List.mem_cons_of_mem _ ht)) s₁
    exact ⟨v :: vs, s₂, by simp [values, hv, hvs]⟩

end Generate

/-! ## Records -/

/-- A generator of a model with types of type strings gives a record, and only its source moves. -/
theorem Generator.exists_fetch_eq_ok {g : Generator σ} (h : g.model.Denoted) :
    ∃ r source, g.fetch = .ok (r, { g with source }) := by
  have htypes : ∀ type ∈ g.model.toList.map Prod.snd, type.Denoted := by
    intro type htype
    obtain ⟨field, hfield, rfl⟩ := List.mem_map.mp htype
    exact h field hfield
  obtain ⟨vs, source, hvalues⟩ := Generate.exists_values_eq_ok htypes g.source
  refine ⟨Record.ofList (g.model.names.zip vs), source, ?_⟩
  rw [fetch_eq, hvalues, map_ok]

end Specimen
