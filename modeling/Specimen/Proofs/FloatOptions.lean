import Specimen.Proofs.Literals

/-!
# The language of float types

The options of a float type are two decimal literals with a hyphen between them. A literal may have
a hyphen of its own, as the sign of its exponent, so the separator is the hyphen that no exponent
mark precedes. There is one such hyphen (`separator_iff`), and the reader cuts there: it accepts
exactly the written options, with the floats that the literals round to
(`parse_float_ok_iff_written`).
-/

namespace Specimen

open Decimal (Literal isExponentMark)

namespace FloatRange

theorem ofBounds_eq_ok_iff {min max : Float} {range : FloatRange} :
    ofBounds min max = .ok range ↔ range.min = min ∧ range.max = max := by
  unfold ofBounds
  by_cases hfinite : min.isFinite ∧ max.isFinite
  · rw [dif_pos hfinite, dite_eq_ok_iff]
    constructor
    · rintro ⟨h, rfl⟩
      exact ⟨rfl, rfl⟩
    · rintro ⟨rfl, rfl⟩
      exact ⟨range.min_le_max, rfl⟩
  · rw [dif_neg hfinite]
    constructor
    · intro h
      simp at h
    · rintro ⟨rfl, rfl⟩
      exact absurd range.finite hfinite

/-! ## The cut -/

/-- Whether an exponent mark comes last, where the flag stands for what comes before the text. -/
def endsWithMark (afterMark : Bool) (cs : List Char) : Bool :=
  (cs.getLast?.map isExponentMark).getD afterMark

theorem endsWithMark_cons (afterMark : Bool) (c : Char) (cs : List Char) :
    endsWithMark afterMark (c :: cs) = endsWithMark (isExponentMark c) cs := by
  cases cs with
  | nil => rfl
  | cons d ds => simp [endsWithMark, List.getLast?_cons]

theorem endsWithMark_append_hyphen (a cs : List Char) :
    endsWithMark false (a ++ '-' :: cs) = endsWithMark false cs := by
  have hlast : (a ++ '-' :: cs).getLast? = ('-' :: cs).getLast? := by
    simp [List.getLast?_append, List.getLast?_cons]
  rw [endsWithMark, hlast]
  exact endsWithMark_cons false '-' cs

theorem eq_append_of_cutBounds? {afterMark : Bool} {cs a b : List Char}
    (h : cutBounds? afterMark cs = some (a, b)) : cs = a ++ '-' :: b := by
  induction cs generalizing afterMark a with
  | nil => simp [cutBounds?] at h
  | cons c cs ih =>
    unfold cutBounds? at h
    split at h
    · rename_i hc
      simp only [Option.some.injEq, Prod.mk.injEq] at h
      obtain ⟨rfl, rfl⟩ := h
      rw [hc.1, List.nil_append]
    · obtain ⟨⟨a', b'⟩, hcut, heq⟩ := Option.map_eq_some_iff.mp h
      simp only [Prod.mk.injEq] at heq
      obtain ⟨rfl, rfl⟩ := heq
      rw [ih hcut, List.cons_append]

/-- The cut is at a hyphen without mark if all hyphens before it have one: by induction on what
stands before, where the flag carries the character that was passed last. -/
theorem cutBounds?_append {afterMark : Bool} {a : List Char} (b : List Char)
    (hinner : ∀ before after, a = before ++ '-' :: after → endsWithMark afterMark before = true)
    (hend : endsWithMark afterMark a = false) :
    cutBounds? afterMark (a ++ '-' :: b) = some (a, b) := by
  induction a generalizing afterMark with
  | nil =>
    have hflag : afterMark = false := hend
    simp [cutBounds?, hflag]
  | cons c cs ih =>
    have hnot : ¬ (c = '-' ∧ afterMark = false) := by
      rintro ⟨rfl, rfl⟩
      have := hinner [] cs rfl
      exact absurd this (by decide)
    have hcut : cutBounds? (isExponentMark c) (cs ++ '-' :: b) = some (cs, b) := by
      refine ih (fun before after hcs => ?_) (by rw [← endsWithMark_cons afterMark]; exact hend)
      rw [← endsWithMark_cons afterMark]
      exact hinner (c :: before) after (by rw [hcs, List.cons_append])
    rw [List.cons_append, cutBounds?, if_neg hnot, hcut]
    rfl

/-! ## Written options -/

/-- The options are two literals with the separator between them, denoting `p` and `q`. -/
def WrittenBounds (options a b : List Char) (p q : ℚ) : Prop :=
  options = a ++ '-' :: b ∧ Literal a p ∧ Literal b q

section Written

variable {options a b : List Char} {p q : ℚ}

theorem endsWithMark_before_hyphen {r : ℚ} {cs before after : List Char} (h : Literal cs r)
    (hcs : cs = before ++ '-' :: after) : endsWithMark false before = true := by
  obtain ⟨c, hlast, hmark⟩ := h.mark_before_hyphen hcs
  simp [endsWithMark, hlast, hmark]

theorem endsWithMark_literal {r : ℚ} {cs : List Char} (h : Literal cs r) :
    endsWithMark false cs = false := by
  unfold endsWithMark
  cases hlast : cs.getLast? with
  | none => rfl
  | some c => exact h.not_mark_at_end hlast

/-- The reader cuts written options at the separator, past the hyphen of an exponent. -/
theorem WrittenBounds.cutBounds? (h : WrittenBounds options a b p q) :
    FloatRange.cutBounds? false options = some (a, b) := by
  obtain ⟨rfl, ha, hb⟩ := h
  exact cutBounds?_append b (fun _ _ => endsWithMark_before_hyphen ha) (endsWithMark_literal ha)

/-- A hyphen of written options is the separator exactly if it does not directly follow a mark. -/
theorem WrittenBounds.separator_iff (h : WrittenBounds options a b p q) {before after : List Char}
    (hsplit : options = before ++ '-' :: after) :
    endsWithMark false before = false ↔ before = a ∧ after = b := by
  obtain ⟨rfl, ha, hb⟩ := h
  constructor
  · intro hmark
    -- The two hyphens are the same, or one text before a hyphen reaches into the other literal.
    rcases List.append_eq_append_iff.mp hsplit with ⟨as, hbefore, hafter⟩ | ⟨as, hbefore, hafter⟩
    · rw [List.cons_eq_append_iff] at hafter
      rcases hafter with ⟨rfl, heq⟩ | ⟨as', rfl, hb'⟩
      · rw [List.append_nil] at hbefore
        exact ⟨hbefore, (List.cons.inj heq).2⟩
      · have hinner := endsWithMark_before_hyphen hb hb'
        rw [hbefore, endsWithMark_append_hyphen, hinner] at hmark
        exact absurd hmark (by decide)
    · rw [List.cons_eq_append_iff] at hafter
      rcases hafter with ⟨rfl, heq⟩ | ⟨as', rfl, -⟩
      · rw [List.append_nil] at hbefore
        exact ⟨hbefore.symm, (List.cons.inj heq).2.symm⟩
      · rw [endsWithMark_before_hyphen ha hbefore] at hmark
        exact absurd hmark (by decide)
  · rintro ⟨rfl, rfl⟩
    exact endsWithMark_literal ha

/-- Options are written in one way at most. -/
theorem WrittenBounds.unique {a' b' : List Char} {p' q' : ℚ} (h : WrittenBounds options a b p q)
    (h' : WrittenBounds options a' b' p' q') : a' = a ∧ b' = b ∧ p' = p ∧ q' = q := by
  have hcut := h.cutBounds?
  rw [h'.cutBounds?, Option.some.injEq, Prod.mk.injEq] at hcut
  obtain ⟨rfl, rfl⟩ := hcut
  exact ⟨rfl, rfl, h'.2.1.unique h.2.1, h'.2.2.unique h.2.2⟩

end Written

/-- Options of floats are read if they are written, as the floats that their numbers round to. -/
theorem read_some_eq_ok_iff {options : List Char} {range : FloatRange} :
    read (some options) = .ok range ↔
      ∃ a b p q, WrittenBounds options a b p q ∧ RoundsTo p range.min ∧ RoundsTo q range.max := by
  constructor
  · intro h
    simp only [read] at h
    split at h
    · rename_i min max hbounds
      simp only [Option.bind_eq_bind, Option.bind_eq_some_iff, Prod.exists, Option.some.injEq,
        Prod.mk.injEq] at hbounds
      obtain ⟨a, b, hcut, d, hd, d', hd', rfl, rfl⟩ := hbounds
      obtain ⟨hmin, hmax⟩ := ofBounds_eq_ok_iff.mp h
      refine ⟨a, b, d.value, d'.value, ⟨eq_append_of_cutBounds? hcut, ?_, ?_⟩, ?_, ?_⟩
      · exact Decimal.literal_of_read? hd
      · exact Decimal.literal_of_read? hd'
      · exact Decimal.roundsTo_value_iff.mpr hmin.symm
      · exact Decimal.roundsTo_value_iff.mpr hmax.symm
    · simp at h
  · rintro ⟨a, b, p, q, hwritten, hmin, hmax⟩
    have hcut := hwritten.cutBounds?
    obtain ⟨-, ha, hb⟩ := hwritten
    obtain ⟨d, hd, rfl⟩ := ha.read?
    obtain ⟨d', hd', rfl⟩ := hb.read?
    simp only [read, hcut, hd, hd', Option.bind_eq_bind, Option.bind_some]
    exact ofBounds_eq_ok_iff.mpr
      ⟨(Decimal.roundsTo_value_iff.mp hmin).symm, (Decimal.roundsTo_value_iff.mp hmax).symm⟩

end FloatRange

namespace FieldType

open FloatRange (WrittenBounds)

theorem parse_float_eq (options : String) :
    parse ("f:" ++ options) = (FloatRange.read (some options.toList)).map float := by
  have hlist : ("f:" ++ options).toList = 'f' :: ':' :: options.toList := by
    rw [String.toList_append]
    rfl
  rw [parse, hlist, read_code_options (by decide)]
  rfl

/-- Options of floats are accepted exactly if they are two literals with a hyphen between them that
round to finite floats in order, and denote the range of these floats. There is one way at most to
see options as two literals: the cut of the reader, at the one hyphen that follows no exponent mark.
The code alone denotes the floats from zero to one. -/
theorem parse_float_ok_iff_written (options : String) :
    (∀ type, parse ("f:" ++ options) = .ok type ↔
      ∃ a b p q min max, ∃ (hfinite : min.isFinite ∧ max.isFinite) (hle : min ≤ max),
        WrittenBounds options.toList a b p q ∧ RoundsTo p min ∧ RoundsTo q max ∧
          type = .float ⟨min, max, hfinite, hle⟩) ∧
      (∀ a b p q, WrittenBounds options.toList a b p q →
        FloatRange.cutBounds? false options.toList = some (a, b) ∧
          (∀ before after, options.toList = before ++ '-' :: after →
            ((∀ c, before.getLast? = some c → c ≠ 'e' ∧ c ≠ 'E') ↔ before = a ∧ after = b)) ∧
          ∀ a' b' p' q', WrittenBounds options.toList a' b' p' q' →
            a' = a ∧ b' = b ∧ p' = p ∧ q' = q) ∧
      parse "f" = .ok (.float ⟨0, 1, by decide, by decide⟩) := by
  refine ⟨fun type => ?_, fun a b p q hwritten => ⟨hwritten.cutBounds?, ?_, ?_⟩, rfl⟩
  · rw [parse_float_eq, map_eq_ok_iff]
    constructor
    · rintro ⟨range, hread, rfl⟩
      obtain ⟨a, b, p, q, hwritten, hmin, hmax⟩ := FloatRange.read_some_eq_ok_iff.mp hread
      exact ⟨a, b, p, q, range.min, range.max, range.finite, range.min_le_max, hwritten, hmin, hmax,
        rfl⟩
    · rintro ⟨a, b, p, q, min, max, hfinite, hle, hwritten, hmin, hmax, rfl⟩
      exact ⟨⟨min, max, hfinite, hle⟩,
        FloatRange.read_some_eq_ok_iff.mpr ⟨a, b, p, q, hwritten, hmin, hmax⟩, rfl⟩
  · intro before after hsplit
    rw [← hwritten.separator_iff hsplit]
    unfold FloatRange.endsWithMark
    cases hlast : before.getLast? with
    | none => simp
    | some c => simp [isExponentMark]
  · intro a' b' p' q' hwritten'
    exact hwritten.unique hwritten'

example : FloatRange.cutBounds? false "1e-2-3e-1".toList = some ("1e-2".toList, "3e-1".toList) := by
  decide

example : parse "f:1e-2" = .error (.invalidFloatOptions "1e-2") := by
  decide

end FieldType

end Specimen
