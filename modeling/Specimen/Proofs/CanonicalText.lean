import Specimen.FieldType.Printer
import Specimen.Proofs.Display
import Specimen.Proofs.FloatOptions

/-!
# Canonical type strings read back

A field type can be built that no type string denotes: one with a negative bound or with counts
beyond the largest amount. The canonical type string of any other field type is read as an equal
type, and of these it is refused (`parse_canonical`). What is read is never of that kind, so
canonical type strings decide equality of the types that two type strings denote.
-/

namespace Specimen

open Decimal (Literal)
open Numeral (Digits)

/-! ## Integers -/

namespace IntRange

theorem zero_le_iff {x : Int64} : 0 ≤ x ↔ 0 ≤ x.toInt :=
  Int64.le_iff_toInt_le

theorem ofInt_toInt_of_nonneg {x : Int64} (h : 0 ≤ x) :
    Numeral.ofInt x.toInt = Numeral.ofNat x.toNatClampNeg := by
  have hnat : x.toInt = (x.toNatClampNeg : Int) := (Int.toNat_of_nonneg (zero_le_iff.mp h)).symm
  rw [hnat]
  rfl

theorem ofInt_toInt_of_neg {x : Int64} (h : ¬ 0 ≤ x) :
    ∃ digits, Numeral.ofInt x.toInt = '-' :: digits := by
  rw [zero_le_iff] at h
  cases hx : x.toInt with
  | ofNat n =>
    rw [hx] at h
    exact absurd (Int.natCast_nonneg n) h
  | negSucc n => exact ⟨_, rfl⟩

theorem nonneg_of_read {options : Option (List Char)} {range : IntRange}
    (h : read options = .ok range) : 0 ≤ range.min := by
  cases options with
  | none =>
    simp only [read, Except.ok.injEq] at h
    subst h
    decide
  | some options =>
    obtain ⟨a, b, m, n, hmn, hn, -, -, -, rfl⟩ := read_some_eq_ok_iff.mp h
    rw [zero_le_iff]
    change 0 ≤ (Int64.ofNat m).toInt
    rw [toInt_ofNat (Nat.le_trans hmn hn)]
    exact Int.natCast_nonneg m

/-- The bounds of a range that is not negative are read as the range. -/
theorem read_boundsText {range : IntRange} (h : 0 ≤ range.min) :
    read (some (boundsText range.min range.max)) = .ok range := by
  have hmax : 0 ≤ range.max := Int64.le_trans h range.min_le_max
  have hle : range.min.toNatClampNeg ≤ range.max.toNatClampNeg :=
    Int.toNat_le_toNat (Int64.le_iff_toInt_le.mp range.min_le_max)
  have hbound : range.max.toNatClampNeg ≤ largestBound :=
    Nat.le_of_lt_succ (Int64.toNatClampNeg_lt range.max)
  refine read_some_eq_ok_iff.mpr ⟨_, _, _, _, hle, hbound, ?_, Numeral.digits_ofNat _,
    Numeral.digits_ofNat _, ?_⟩
  · rw [boundsText, rangeText, ofInt_toInt_of_nonneg h, ofInt_toInt_of_nonneg hmax]
  · cases range
    simp only [ofNats, IntRange.mk.injEq]
    exact ⟨(Int64.ofNat_toNatClampNeg _ h).symm, (Int64.ofNat_toNatClampNeg _ hmax).symm⟩

/-- A text that starts with a hyphen is no range: the first numeral would be empty. -/
theorem nonneg_of_read_boundsText {min max : Int64} {range : IntRange}
    (h : read (some (boundsText min max)) = .ok range) : 0 ≤ min := by
  by_contra hneg
  obtain ⟨digits, hdigits⟩ := ofInt_toInt_of_neg hneg
  obtain ⟨a, b, m, n, -, -, htext, ha, -, -⟩ := read_some_eq_ok_iff.mp h
  rw [boundsText, rangeText, hdigits, List.cons_append, List.cons_eq_append_iff] at htext
  rcases htext with ⟨hnil, -⟩ | ⟨a', rfl, -⟩
  · exact ha.ne_nil hnil
  · exact ha.notMem rfl (List.mem_cons_self ..)

end IntRange

/-! ## Floats -/

namespace FloatRange

open Binary64 (isNegative)

/-- Neither bound has its sign bit set. -/
def Unsigned (range : FloatRange) : Prop :=
  isNegative range.min = false ∧ isNegative range.max = false

theorem unsigned_of_read {options : Option (List Char)} {range : FloatRange}
    (h : read options = .ok range) : range.Unsigned := by
  cases options with
  | none =>
    simp only [read, Except.ok.injEq] at h
    subst h
    exact ⟨by decide, by decide⟩
  | some options =>
    obtain ⟨a, b, p, q, -, hmin, hmax⟩ := read_some_eq_ok_iff.mp h
    exact ⟨hmin.isNegative, hmax.isNegative⟩

theorem beq_iff {a b : FloatRange} :
    (a == b) = true ↔
      Binary64.number a.min = Binary64.number b.min ∧
        Binary64.number a.max = Binary64.number b.max := by
  change (a.min == b.min && a.max == b.max) = true ↔ _
  rw [Bool.and_eq_true, Binary64.beq_iff a.finite.1 b.finite.1,
    Binary64.beq_iff a.finite.2 b.finite.2]

theorem eq_of_beq {a b : FloatRange} (ha : a.Unsigned) (hb : b.Unsigned) (h : (a == b) = true) :
    a = b := by
  change (a.min == b.min && a.max == b.max) = true at h
  rw [Bool.and_eq_true] at h
  have hmin := Binary64.eq_of_beq a.finite.1 b.finite.1 ha.1 hb.1 h.1
  have hmax := Binary64.eq_of_beq a.finite.2 b.finite.2 ha.2 hb.2 h.2
  cases a
  cases b
  simp only [FloatRange.mk.injEq]
  exact ⟨hmin, hmax⟩

/-- The bounds of a range without sign bits are read as the range. -/
theorem read_boundsText {range : FloatRange} (h : range.Unsigned) :
    read (some (boundsText range.min range.max)) = .ok range := by
  obtain ⟨p, hp, hmin⟩ := displayFloat_literal range.finite.1 h.1
  obtain ⟨q, hq, hmax⟩ := displayFloat_literal range.finite.2 h.2
  exact read_some_eq_ok_iff.mpr ⟨_, _, p, q, ⟨rfl, hp, hq⟩, hmin, hmax⟩

theorem not_literal_hyphen {cs : List Char} {q : ℚ} : ¬ Literal ('-' :: cs) q := by
  intro h
  have := endsWithMark_before_hyphen h (List.nil_append _).symm
  exact absurd this (by decide)

/-- A bound with a sign bit is displayed with a hyphen in front, which no literal has: the hyphen of
the first bound would be the separator, and that of the second would belong to its literal. -/
theorem unsigned_of_read_boundsText {range range' : FloatRange}
    (h : read (some (boundsText range.min range.max)) = .ok range') : range.Unsigned := by
  obtain ⟨a, b, p, q, hwritten, -, -⟩ := read_some_eq_ok_iff.mp h
  have hmin : isNegative range.min = false := by
    by_contra hneg
    rw [Bool.not_eq_false] at hneg
    obtain ⟨body, hbody⟩ := displayFloat_of_isNegative range.finite.1 hneg
    have hsplit : boundsText range.min range.max =
        [] ++ '-' :: (body ++ '-' :: displayFloat range.max) := by
      rw [boundsText, rangeText, hbody]
      rfl
    obtain ⟨rfl, -⟩ := (hwritten.separator_iff hsplit).mp rfl
    exact hwritten.2.1.ne_nil rfl
  refine ⟨hmin, ?_⟩
  by_contra hneg
  rw [Bool.not_eq_false] at hneg
  obtain ⟨body, hbody⟩ := displayFloat_of_isNegative range.finite.2 hneg
  obtain ⟨r, hr, -⟩ := displayFloat_literal range.finite.1 hmin
  have hsplit : boundsText range.min range.max = displayFloat range.min ++ '-' :: '-' :: body := by
    rw [boundsText, rangeText, hbody]
  obtain ⟨-, rfl⟩ := (hwritten.separator_iff hsplit).mp (endsWithMark_literal hr)
  exact not_literal_hyphen hwritten.2.2

end FloatRange

/-! ## Amounts of text -/

namespace Amount

/-- No count exceeds the largest amount that a type string may ask for. -/
def Bounded : Amount → Prop
  | fixed count => count ≤ maxTextAmount
  | range counts => counts.min ≤ maxTextAmount ∧ counts.max ≤ maxTextAmount

end Amount

theorem TextUnit.code_injective {u v : TextUnit} (h : u.code = v.code) : u = v := by
  have hu := ofCode?_eq_some_iff.mpr h
  rw [ofCode?_eq_some_iff.mpr rfl, Option.some.injEq] at hu
  exact hu.symm

namespace TextShape

theorem WrittenAmount.bounded {cs : List Char} {amount : Amount} (h : WrittenAmount cs amount) :
    amount.Bounded := by
  cases h with
  | fixed _ h => exact h
  | range _ _ h hn => exact ⟨Nat.le_trans h hn, hn⟩

theorem writtenAmount_text {amount : Amount} (h : amount.Bounded) :
    WrittenAmount amount.text amount := by
  cases amount with
  | fixed count => exact .fixed (Numeral.digits_ofNat count) h
  | range counts =>
    exact .range (Numeral.digits_ofNat counts.min) (Numeral.digits_ofNat counts.max)
      counts.min_le_max h.2

/-- The text of an amount stands for no other amount. -/
theorem WrittenAmount.eq_of_text {amount amount' : Amount}
    (h : WrittenAmount amount.text amount') : amount' = amount := by
  have hdigits : ∀ n : Nat, '-' ∉ Numeral.ofNat n := fun n =>
    (Numeral.digits_ofNat n).notMem rfl
  generalize htext : amount.text = text at h
  cases h with
  | @fixed a count' ha _ =>
    cases amount with
    | fixed count =>
      rw [← htext] at ha
      rw [ha.unique (Numeral.digits_ofNat count)]
    | range counts =>
      have hmem : '-' ∈ text := by simp [← htext, Amount.text, CountRange.boundsText, rangeText]
      exact absurd hmem (ha.notMem rfl)
  | @range a b m n ha hb hmn _ =>
    cases amount with
    | fixed count =>
      have hmem : '-' ∈ (Amount.fixed count).text := by simp [htext]
      exact absurd hmem (hdigits count)
    | range counts =>
      have hcut := Text.cut?_append (hdigits counts.min) (Numeral.ofNat counts.max)
      change Text.cut? '-' (Amount.range counts).text = _ at hcut
      rw [htext, Text.cut?_append (ha.notMem rfl), Option.some.injEq, Prod.mk.injEq] at hcut
      obtain ⟨rfl, rfl⟩ := hcut
      obtain rfl := ha.unique (Numeral.digits_ofNat counts.min)
      obtain rfl := hb.unique (Numeral.digits_ofNat counts.max)
      rfl

/-- The canonical options of a text are read exactly if the counts are bounded, as that text. -/
theorem read_text_iff {shape shape' : TextShape} :
    read (shape.amount.text ++ [shape.unit.code]) = .ok shape' ↔
      shape.amount.Bounded ∧ shape' = shape := by
  rw [read_eq_ok_iff]
  constructor
  · rintro ⟨amount, htext, hwritten⟩
    obtain ⟨rfl, hcode⟩ := List.append_inj' htext rfl
    have hamount := hwritten.eq_of_text
    have hunit : shape'.unit = shape.unit := TextUnit.code_injective (List.cons.inj hcode).1.symm
    refine ⟨hamount ▸ hwritten.bounded, ?_⟩
    cases shape
    cases shape'
    simp only [TextShape.mk.injEq]
    exact ⟨hunit, hamount⟩
  · rintro ⟨hbounded, rfl⟩
    exact ⟨_, rfl, writtenAmount_text hbounded⟩

end TextShape

/-! ## Field types -/

namespace FieldType

/-- The field types that have a type string: no bound is negative, but for those of a range that
equals the unit interval, and no count exceeds the largest amount. -/
def Readable : FieldType → Prop
  | integer range => 0 ≤ range.min
  | float range =>
    (range == .unitInterval) = true ∨
      (Binary64.isNegative range.min = false ∧ Binary64.isNegative range.max = false)
  | text shape => shape.amount.Bounded
  | image _ => True

/-- The field types that a type string denotes: a bound of floats never has its sign bit set. -/
def Denoted : FieldType → Prop
  | float range => range.Unsigned
  | type => type.Readable

theorem Denoted.readable {type : FieldType} (h : type.Denoted) : type.Readable := by
  cases type with
  | float range => exact Or.inr h
  | integer range => exact h
  | text shape => exact h
  | image size => exact h

theorem parse_withOptions {code : Char} (h : code ≠ ':') (options : List Char) :
    parse (String.ofList (code :: ':' :: options)) = ofCode [code] (some options) := by
  rw [parse, String.toList_ofList, read_code_options h]

@[simp]
theorem beq_self (type : FieldType) : (type == type) = true := by
  cases type with
  | integer range => exact beq_self_eq_true range
  | float range => exact FloatRange.beq_iff.mpr ⟨rfl, rfl⟩
  | text shape => exact decide_eq_true rfl
  | image size => exact decide_eq_true rfl

/-- Equal types without sign bits are the same type. -/
theorem eq_of_beq {a b : FieldType} (ha : a.Denoted) (hb : b.Denoted) (h : (a == b) = true) :
    a = b := by
  cases a with
  | integer a =>
    cases b with
    | integer b => exact congrArg integer (LawfulBEq.eq_of_beq h)
    | _ => exact absurd h Bool.false_ne_true
  | float a =>
    cases b with
    | float b => exact congrArg float (FloatRange.eq_of_beq ha hb h)
    | _ => exact absurd h Bool.false_ne_true
  | text a =>
    cases b with
    | text b => exact congrArg text (of_decide_eq_true h)
    | _ => exact absurd h Bool.false_ne_true
  | image a =>
    cases b with
    | image b => exact congrArg image (of_decide_eq_true h)
    | _ => exact absurd h Bool.false_ne_true

theorem denoted_of_ofCode {code : List Char} {options : Option (List Char)} {type : FieldType}
    (h : ofCode code options = .ok type) : type.Denoted := by
  unfold ofCode at h
  split at h
  · obtain ⟨range, hread, rfl⟩ := map_eq_ok_iff.mp h
    exact IntRange.nonneg_of_read hread
  · obtain ⟨range, hread, rfl⟩ := map_eq_ok_iff.mp h
    exact FloatRange.unsigned_of_read hread
  · obtain ⟨shape, hread, rfl⟩ := map_eq_ok_iff.mp h
    obtain ⟨_, -, hwritten⟩ := TextShape.read_eq_ok_iff.mp hread
    exact hwritten.bounded
  · obtain ⟨size, -, rfl⟩ := map_eq_ok_iff.mp h
    exact trivial
  · simp at h

/-- What a type string denotes has no sign bit and no count beyond the largest amount. -/
theorem denoted_of_parse {s : String} {type : FieldType} (h : parse s = .ok type) :
    type.Denoted := by
  rw [parse] at h
  rcases bare_or_withOptions s.toList with ⟨hnot, -⟩ | ⟨options, hnot, hself⟩
  · rw [read_bare hnot] at h
    exact denoted_of_ofCode h
  · rw [hself, read_withOptions hnot] at h
    exact denoted_of_ofCode h

/-! ## Canonical type strings -/

theorem parse_canonical_unitInterval {range : FloatRange} (h : (range == .unitInterval) = true) :
    parse (float range).canonical = .ok (float .unitInterval) := by
  rw [canonical, canonicalText, if_pos h]
  rfl

theorem parse_canonical_integer {range : IntRange} (h : range ≠ .nonNegative) :
    parse (integer range).canonical =
      (IntRange.read (some (IntRange.boundsText range.min range.max))).map integer := by
  rw [canonical, canonicalText, if_neg h, parse_withOptions (by decide)]
  rfl

theorem parse_canonical_float {range : FloatRange} (h : ¬ (range == .unitInterval) = true) :
    parse (float range).canonical =
      (FloatRange.read (some (FloatRange.boundsText range.min range.max))).map float := by
  rw [canonical, canonicalText, if_neg h, parse_withOptions (by decide)]
  rfl

theorem parse_canonical_text (shape : TextShape) :
    parse (text shape).canonical =
      (TextShape.read (shape.amount.text ++ [shape.unit.code])).map text := by
  rw [canonical, canonicalText, List.cons_append, List.cons_append, parse_withOptions (by decide)]
  rfl

theorem parse_canonical_image (size : ImageSize) :
    parse (image size).canonical = .ok (image size) := by
  rw [canonical, canonicalText, List.cons_append, List.cons_append, parse_withOptions (by decide)]
  exact map_eq_ok_iff.mpr ⟨size, ImageSize.read_eq_ok_iff.mpr rfl, rfl⟩

/-- A type that a type string denotes is what its canonical type string is read as. -/
theorem parse_canonical_of_denoted {type : FieldType} (h : type.Denoted) :
    parse type.canonical = .ok type := by
  cases type with
  | integer range =>
    by_cases hbare : range = .nonNegative
    · subst hbare
      rfl
    · rw [parse_canonical_integer hbare, IntRange.read_boundsText h]
      rfl
  | float range =>
    by_cases hbare : (range == .unitInterval) = true
    · rw [parse_canonical_unitInterval hbare]
      have hunit : FloatRange.unitInterval.Unsigned := ⟨by decide, by decide⟩
      rw [FloatRange.eq_of_beq h hunit hbare]
    · rw [parse_canonical_float hbare, FloatRange.read_boundsText h]
      rfl
  | text shape =>
    rw [parse_canonical_text, TextShape.read_text_iff.mpr ⟨h, rfl⟩]
    rfl
  | image size => exact parse_canonical_image size

/-- Where the canonical type string is read, the type has a type string. -/
theorem readable_of_parse_canonical {type type' : FieldType}
    (h : parse type.canonical = .ok type') : type.Readable := by
  cases type with
  | integer range =>
    by_cases hbare : range = .nonNegative
    · subst hbare
      exact (by decide : (0 : Int64) ≤ 0)
    · rw [parse_canonical_integer hbare] at h
      obtain ⟨_, hread, -⟩ := map_eq_ok_iff.mp h
      exact IntRange.nonneg_of_read_boundsText hread
  | float range =>
    by_cases hbare : (range == .unitInterval) = true
    · exact Or.inl hbare
    · rw [parse_canonical_float hbare] at h
      obtain ⟨_, hread, -⟩ := map_eq_ok_iff.mp h
      exact Or.inr (FloatRange.unsigned_of_read_boundsText hread)
  | text shape =>
    rw [parse_canonical_text] at h
    obtain ⟨_, hread, -⟩ := map_eq_ok_iff.mp h
    exact (TextShape.read_text_iff.mp hread).1
  | image size => exact trivial

/-- The canonical type string of a readable type denotes an equal type. -/
theorem parse_canonical_of_readable {type : FieldType} (h : type.Readable) :
    ∃ type', parse type.canonical = .ok type' ∧ (type' == type) = true := by
  cases type with
  | float range =>
    rcases h with hbare | hunsigned
    · refine ⟨float .unitInterval, parse_canonical_unitInterval hbare, ?_⟩
      obtain ⟨hmin, hmax⟩ := FloatRange.beq_iff.mp hbare
      exact FloatRange.beq_iff.mpr ⟨hmin.symm, hmax.symm⟩
    · exact ⟨_, parse_canonical_of_denoted hunsigned, beq_self _⟩
  | integer range => exact ⟨_, parse_canonical_of_denoted h, beq_self _⟩
  | text shape => exact ⟨_, parse_canonical_of_denoted h, beq_self _⟩
  | image size => exact ⟨_, parse_canonical_of_denoted h, beq_self _⟩

/-- The canonical type string of a type that has a type string denotes an equal type, and any other
is refused. A type string is read as a type whose canonical type string is read as that same type,
so two type strings denote equal types exactly if these have the same canonical type string. -/
theorem parse_canonical :
    (∀ type : FieldType,
      ((∃ type', parse type.canonical = .ok type' ∧ (type' == type) = true) ↔ type.Readable) ∧
        (¬ type.Readable → ∃ cause, parse type.canonical = .error cause)) ∧
      (∀ s type, parse s = .ok type →
        type.Readable ∧ parse type.canonical = .ok type ∧ (type == type) = true) ∧
      ∀ s s' type type', parse s = .ok type → parse s' = .ok type' →
        ((type == type') = true ↔ type.canonical = type'.canonical) := by
  refine ⟨fun type => ⟨⟨?_, parse_canonical_of_readable⟩, fun hnot => ?_⟩, fun s type h => ?_,
    fun s s' type type' h h' => ⟨fun hbeq => ?_, fun htext => ?_⟩⟩
  · rintro ⟨type', hparse, -⟩
    exact readable_of_parse_canonical hparse
  · cases hparse : parse type.canonical with
    | error cause => exact ⟨cause, rfl⟩
    | ok type' => exact absurd (readable_of_parse_canonical hparse) hnot
  · have hdenoted := denoted_of_parse h
    exact ⟨hdenoted.readable, parse_canonical_of_denoted hdenoted, beq_self type⟩
  · rw [eq_of_beq (denoted_of_parse h) (denoted_of_parse h') hbeq]
  · have hparse := parse_canonical_of_denoted (denoted_of_parse h)
    rw [htext, parse_canonical_of_denoted (denoted_of_parse h'), Except.ok.injEq] at hparse
    rw [hparse]
    exact beq_self type

end FieldType

end Specimen
