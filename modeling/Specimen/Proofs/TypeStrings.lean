import Specimen.FieldType.Reader
import Specimen.Proofs.Digits
import Specimen.Proofs.Results
import Mathlib.Data.List.TakeWhile

/-!
# The language of integer, text and image types

`Written cs type` lists the forms of the type strings with code `i`, `t` or `p` and says which field
type each denotes. The reader splits, reads numerals and checks bounds in steps of its own; it
accepts exactly the written forms (`parse_ok_iff_written`).
-/

namespace Specimen

open Numeral (Digits)

theorem Text.cut?_eq_some_iff {sep : Char} {cs before after : List Char} :
    Text.cut? sep cs = some (before, after) ↔ cs = before ++ sep :: after ∧ sep ∉ before := by
  constructor
  · exact Text.eq_append_of_cut?
  · rintro ⟨rfl, hnot⟩
    exact Text.cut?_append hnot after

/-! ## Integer ranges -/

namespace IntRange

/-- The integers between two natural numbers that fit. -/
def ofNats (m n : Nat) (h : m ≤ n) (hn : n ≤ largestBound) : IntRange where
  min := .ofNat m
  max := .ofNat n
  min_le_max := by
    have hlt : n < 2 ^ 63 := Nat.lt_of_le_of_lt hn (by decide)
    exact (Int64.ofNat_le_iff_le (by omega) hlt).mpr h

theorem toInt_ofNat {n : Nat} (hn : n ≤ largestBound) : (Int64.ofNat n).toInt = n :=
  Int64.toInt_ofNat_of_lt (Nat.lt_of_le_of_lt hn (by decide))

theorem ofBounds_eq_ok_iff {min max : Int64} {range : IntRange} :
    ofBounds min max = .ok range ↔ range.min = min ∧ range.max = max := by
  rw [ofBounds, dite_eq_ok_iff]
  constructor
  · rintro ⟨h, rfl⟩
    exact ⟨rfl, rfl⟩
  · rintro ⟨rfl, rfl⟩
    exact ⟨range.min_le_max, rfl⟩

/-- Options of integers are read if they are two numerals in order, the greater one not above the
largest bound. -/
theorem read_some_eq_ok_iff {options : List Char} {range : IntRange} :
    read (some options) = .ok range ↔
      ∃ a b m n, ∃ (h : m ≤ n) (hn : n ≤ largestBound),
        options = a ++ '-' :: b ∧ Digits a m ∧ Digits b n ∧ range = ofNats m n h hn := by
  constructor
  · intro h
    simp only [read] at h
    split at h
    · rename_i min max hbounds
      simp only [Option.bind_eq_bind, Option.bind_eq_some_iff, Prod.exists, Option.some.injEq,
        Prod.mk.injEq] at hbounds
      obtain ⟨a, b, hcut, m, hm, n, hn, rfl, rfl⟩ := hbounds
      obtain ⟨hmd, hmle⟩ := Numeral.readUpTo?_eq_some_iff.mp hm
      obtain ⟨hnd, hnle⟩ := Numeral.readUpTo?_eq_some_iff.mp hn
      obtain ⟨hmin, hmax⟩ := ofBounds_eq_ok_iff.mp h
      have hle : m ≤ n := by
        have := Int64.le_iff_toInt_le.mp range.min_le_max
        rw [hmin, hmax, toInt_ofNat hmle, toInt_ofNat hnle] at this
        omega
      refine ⟨a, b, m, n, hle, hnle, (Text.cut?_eq_some_iff.mp hcut).1, hmd, hnd, ?_⟩
      cases range
      simp only [ofNats, IntRange.mk.injEq]
      exact ⟨hmin, hmax⟩
    · simp at h
  · rintro ⟨a, b, m, n, h, hn, rfl, ha, hb, rfl⟩
    have hcut : Text.cut? '-' (a ++ '-' :: b) = some (a, b) :=
      Text.cut?_append (ha.notMem rfl) b
    have hm : Numeral.readUpTo? largestBound a = some m :=
      Numeral.readUpTo?_eq_some_iff.mpr ⟨ha, by omega⟩
    have hn' : Numeral.readUpTo? largestBound b = some n :=
      Numeral.readUpTo?_eq_some_iff.mpr ⟨hb, hn⟩
    simp only [read, hcut, hm, hn', Option.bind_eq_bind, Option.bind_some]
    exact ofBounds_eq_ok_iff.mpr ⟨rfl, rfl⟩

end IntRange

/-! ## Amounts of text -/

namespace TextUnit

theorem ofCode?_eq_some_iff {c : Char} {unit : TextUnit} :
    ofCode? c = some unit ↔ unit.code = c := by
  constructor
  · intro h
    unfold ofCode? at h
    split at h <;> simp_all [code]
    · rw [← h]
    · rw [← h]
  · rintro rfl
    cases unit <;> rfl

end TextUnit

theorem CountRange.ofBounds_eq_ok_iff {min max : Nat} {counts : CountRange} :
    CountRange.ofBounds min max = .ok counts ↔ counts.min = min ∧ counts.max = max := by
  rw [CountRange.ofBounds, dite_eq_ok_iff]
  constructor
  · rintro ⟨h, rfl⟩
    exact ⟨rfl, rfl⟩
  · rintro ⟨rfl, rfl⟩
    exact ⟨counts.min_le_max, rfl⟩

namespace TextShape

theorem readCounts?_eq_fixed_iff {amount : List Char} {count : Nat} :
    readCounts? amount = some (count, none) ↔ Digits amount count ∧ count ≤ maxTextAmount := by
  unfold readCounts?
  constructor
  · intro h
    split at h
    · simpa [Numeral.readUpTo?_eq_some_iff] using h
    · simp [Option.bind_eq_some_iff] at h
  · rintro ⟨hd, hle⟩
    have hcut : Text.cut? '-' amount = none := Text.cut?_eq_none_iff.mpr (hd.notMem rfl)
    rw [hcut]
    simp [Numeral.readUpTo?_eq_some_iff.mpr ⟨hd, hle⟩]

theorem readCounts?_eq_range_iff {amount : List Char} {m n : Nat} :
    readCounts? amount = some (m, some n) ↔
      ∃ a b, amount = a ++ '-' :: b ∧ Digits a m ∧ Digits b n ∧ m ≤ maxTextAmount ∧
        n ≤ maxTextAmount := by
  unfold readCounts?
  constructor
  · intro h
    split at h
    · simp at h
    · rename_i a b hcut
      simp only [Option.bind_eq_bind, Option.bind_eq_some_iff, Option.some.injEq,
        Prod.mk.injEq] at h
      obtain ⟨m', hm, n', hn, rfl, rfl⟩ := h
      obtain ⟨hmd, hmle⟩ := Numeral.readUpTo?_eq_some_iff.mp hm
      obtain ⟨hnd, hnle⟩ := Numeral.readUpTo?_eq_some_iff.mp hn
      exact ⟨a, b, (Text.cut?_eq_some_iff.mp hcut).1, hmd, hnd, hmle, hnle⟩
  · rintro ⟨a, b, rfl, ha, hb, hm, hn⟩
    have hcut : Text.cut? '-' (a ++ '-' :: b) = some (a, b) :=
      Text.cut?_append (ha.notMem rfl) b
    rw [hcut]
    simp [Numeral.readUpTo?_eq_some_iff.mpr ⟨ha, hm⟩, Numeral.readUpTo?_eq_some_iff.mpr ⟨hb, hn⟩]

/-- The amount before the unit, as a text and as what it stands for. -/
inductive WrittenAmount : List Char → Amount → Prop where
  | fixed {a : List Char} {count : Nat} (ha : Digits a count) (h : count ≤ maxTextAmount) :
      WrittenAmount a (.fixed count)
  | range {a b : List Char} {m n : Nat} (ha : Digits a m) (hb : Digits b n) (h : m ≤ n)
      (hn : n ≤ maxTextAmount) : WrittenAmount (a ++ '-' :: b) (.range ⟨m, n, h⟩)

/-- Options of texts are read if they are a written amount followed by the unit's character. -/
theorem read_eq_ok_iff {options : List Char} {shape : TextShape} :
    read options = .ok shape ↔
      ∃ amount, options = amount ++ [shape.unit.code] ∧ WrittenAmount amount shape.amount := by
  constructor
  · intro h
    unfold read at h
    split at h
    · simp at h
    · rename_i last hlast
      split at h
      · simp at h
      · rename_i unit hunit
        obtain ⟨amount, rfl⟩ := List.getLast?_eq_some_iff.mp hlast
        rw [TextUnit.ofCode?_eq_some_iff] at hunit
        subst hunit
        rw [List.dropLast_concat] at h
        split at h
        · simp at h
        · rename_i count hcount
          obtain ⟨hd, hle⟩ := readCounts?_eq_fixed_iff.mp hcount
          simp only [Except.ok.injEq] at h
          subst h
          exact ⟨amount, rfl, .fixed hd hle⟩
        · rename_i m n hcounts
          obtain ⟨a, b, rfl, ha, hb, -, hn⟩ := readCounts?_eq_range_iff.mp hcounts
          obtain ⟨counts, hbounds, hshape⟩ := map_eq_ok_iff.mp h
          obtain ⟨rfl, rfl⟩ := CountRange.ofBounds_eq_ok_iff.mp hbounds
          subst hshape
          exact ⟨a ++ '-' :: b, rfl, .range ha hb counts.min_le_max hn⟩
  · obtain ⟨unit, amount⟩ := shape
    rintro ⟨written, rfl, hwritten⟩
    have hlast : (written ++ [unit.code]).getLast? = some unit.code := by simp
    have hunit : TextUnit.ofCode? unit.code = some unit := TextUnit.ofCode?_eq_some_iff.mpr rfl
    unfold read
    simp only [hlast, hunit, List.dropLast_concat]
    cases hwritten with
    | fixed ha h => rw [readCounts?_eq_fixed_iff.mpr ⟨ha, h⟩]
    | @range a b m n ha hb h hn =>
      have hbounds : CountRange.ofBounds m n = .ok ⟨m, n, h⟩ :=
        CountRange.ofBounds_eq_ok_iff.mpr ⟨rfl, rfl⟩
      rw [readCounts?_eq_range_iff.mpr ⟨a, b, rfl, ha, hb, Nat.le_trans h hn, hn⟩]
      simp only [hbounds]
      rfl

end TextShape

/-! ## Sizes of images -/

namespace ImageSize

theorem ofNumerals_eq_ok_iff {width height : String} {size : ImageSize} :
    ofNumerals width height = .ok size ↔ size.width = width ∧ size.height = height := by
  rw [ofNumerals, dite_eq_ok_iff]
  constructor
  · rintro ⟨h, rfl⟩
    exact ⟨rfl, rfl⟩
  · rintro ⟨rfl, rfl⟩
    exact ⟨⟨size.width_isNumeral, size.height_isNumeral⟩, rfl⟩

/-- Options of images are read if they are the two numerals of the size, kept as they are, with an
asterisk between them. -/
theorem read_eq_ok_iff {options : List Char} {size : ImageSize} :
    read options = .ok size ↔ options = size.width.toList ++ '*' :: size.height.toList := by
  unfold read
  constructor
  · intro h
    split at h
    · simp at h
    · rename_i width height hcut
      obtain ⟨hw, hh⟩ := ofNumerals_eq_ok_iff.mp h
      rw [hw, hh, String.toList_ofList, String.toList_ofList]
      exact (Text.cut?_eq_some_iff.mp hcut).1
  · rintro rfl
    have hnot : '*' ∉ size.width.toList :=
      (Numeral.digits_of_isNumeral size.width_isNumeral).notMem rfl
    simp only [Text.cut?_append hnot]
    exact ofNumerals_eq_ok_iff.mpr ⟨by simp, by simp⟩

end ImageSize

/-! ## Whole type strings -/

namespace FieldType

/-- The code of a type string: its characters before the first colon, or all of them. -/
def codeText (cs : List Char) : List Char :=
  cs.takeWhile fun c => c != ':'

theorem codeText_eq_self {cs : List Char} (h : ':' ∉ cs) : codeText cs = cs := by
  rw [codeText, List.takeWhile_eq_self_iff]
  intro c hc
  simp only [bne_iff_ne, ne_eq]
  rintro rfl
  exact h hc

theorem codeText_append {code : List Char} (h : ':' ∉ code) (options : List Char) :
    codeText (code ++ ':' :: options) = code := by
  rw [codeText, List.takeWhile_append_of_pos]
  · simp
  · intro c hc
    simp only [bne_iff_ne, ne_eq]
    rintro rfl
    exact h hc

theorem read_bare {code : List Char} (h : ':' ∉ code) : read code = ofCode code none := by
  rw [read, Text.cut?_eq_none_iff.mpr h]

theorem read_withOptions {code : List Char} (h : ':' ∉ code) (options : List Char) :
    read (code ++ ':' :: options) = ofCode code (some options) := by
  rw [read, Text.cut?_append h]

theorem read_code_options {c : Char} (h : c ≠ ':') (options : List Char) :
    read (c :: ':' :: options) = ofCode [c] (some options) := by
  have hcode : ':' ∉ [c] := by simpa using h.symm
  exact read_withOptions hcode options

/-- A text is a code alone, or a code with the options after its first colon. -/
theorem bare_or_withOptions (cs : List Char) :
    (':' ∉ cs ∧ codeText cs = cs) ∨
      ∃ options, ':' ∉ codeText cs ∧ cs = codeText cs ++ ':' :: options := by
  cases hcut : Text.cut? ':' cs with
  | none =>
    have hnot := Text.cut?_eq_none_iff.mp hcut
    exact Or.inl ⟨hnot, codeText_eq_self hnot⟩
  | some parts =>
    obtain ⟨code, options⟩ := parts
    obtain ⟨rfl, hnot⟩ := Text.cut?_eq_some_iff.mp hcut
    refine Or.inr ⟨options, ?_⟩
    rw [codeText_append hnot]
    exact ⟨hnot, rfl⟩

/-- `Written cs type`: the text is a type string of integers, texts or images, denoting `type`. -/
inductive Written : List Char → FieldType → Prop where
  /-- The code of integers alone. -/
  | bareInteger : Written ['i'] (.integer .nonNegative)
  /-- Integers between two numerals in order that fit. -/
  | integer {a b : List Char} {m n : Nat} (ha : Digits a m) (hb : Digits b n) (h : m ≤ n)
      (hn : n ≤ IntRange.largestBound) :
      Written ('i' :: ':' :: (a ++ '-' :: b)) (.integer (.ofNats m n h hn))
  /-- A fixed amount of words or sentences. -/
  | fixedText {a : List Char} {count : Nat} (ha : Digits a count) (h : count ≤ 10000)
      (unit : TextUnit) :
      Written ('t' :: ':' :: (a ++ [unit.code])) (.text ⟨unit, .fixed count⟩)
  /-- An amount of words or sentences from a range. -/
  | rangeText {a b : List Char} {m n : Nat} (ha : Digits a m) (hb : Digits b n) (h : m ≤ n)
      (hn : n ≤ 10000) (unit : TextUnit) :
      Written ('t' :: ':' :: (a ++ '-' :: b ++ [unit.code])) (.text ⟨unit, .range ⟨m, n, h⟩⟩)
  /-- An image with a width and a height of any length, kept character for character. -/
  | image {a b : List Char} {m n : Nat} (ha : Digits a m) (hb : Digits b n) {size : ImageSize}
      (hw : size.width = String.ofList a) (hh : size.height = String.ofList b) :
      Written ('p' :: ':' :: (a ++ '*' :: b)) (.image size)

theorem ofCode_integer_eq_ok_iff {options : Option (List Char)} {type : FieldType} :
    ofCode ['i'] options = .ok type ↔
      ∃ range, IntRange.read options = .ok range ∧ integer range = type :=
  map_eq_ok_iff

theorem ofCode_text_eq_ok_iff {options : Option (List Char)} {type : FieldType} :
    ofCode ['t'] options = .ok type ↔
      ∃ shape, TextShape.read (options.getD []) = .ok shape ∧ text shape = type :=
  map_eq_ok_iff

theorem ofCode_image_eq_ok_iff {options : Option (List Char)} {type : FieldType} :
    ofCode ['p'] options = .ok type ↔
      ∃ size, ImageSize.read (options.getD []) = .ok size ∧ image size = type :=
  map_eq_ok_iff

/-- What a written type string denotes is what the reader gives for it. -/
theorem Written.read_eq {cs : List Char} {type : FieldType} (h : Written cs type) :
    read cs = .ok type := by
  cases h with
  | bareInteger => rfl
  | @integer a b m n ha hb h hn =>
    have hread := IntRange.read_some_eq_ok_iff.mpr ⟨a, b, m, n, h, hn, rfl, ha, hb, rfl⟩
    rw [read_code_options (by decide)]
    exact ofCode_integer_eq_ok_iff.mpr ⟨_, hread, rfl⟩
  | @fixedText a count ha h unit =>
    have hread : TextShape.read (a ++ [unit.code]) = .ok ⟨unit, .fixed count⟩ :=
      TextShape.read_eq_ok_iff.mpr ⟨a, rfl, .fixed ha h⟩
    rw [read_code_options (by decide)]
    exact ofCode_text_eq_ok_iff.mpr ⟨_, hread, rfl⟩
  | @rangeText a b m n ha hb h hn unit =>
    have hread : TextShape.read (a ++ '-' :: b ++ [unit.code]) = .ok ⟨unit, .range ⟨m, n, h⟩⟩ :=
      TextShape.read_eq_ok_iff.mpr ⟨a ++ '-' :: b, rfl, .range ha hb h hn⟩
    rw [read_code_options (by decide)]
    exact ofCode_text_eq_ok_iff.mpr ⟨_, hread, rfl⟩
  | @image a b _ _ ha hb size hw hh =>
    have hsize : a ++ '*' :: b = size.width.toList ++ '*' :: size.height.toList := by
      rw [hw, hh, String.toList_ofList, String.toList_ofList]
    rw [read_code_options (by decide)]
    exact ofCode_image_eq_ok_iff.mpr ⟨size, ImageSize.read_eq_ok_iff.mpr hsize, rfl⟩

/-- Without options the code `i` alone is accepted: a text needs a unit and an image an asterisk. -/
theorem written_of_ofCode_none {code : List Char} {type : FieldType}
    (hcode : code ∈ [['i'], ['t'], ['p']]) (hread : ofCode code none = .ok type) :
    Written code type := by
  simp only [List.mem_cons, List.not_mem_nil, or_false] at hcode
  rcases hcode with rfl | rfl | rfl
  · obtain ⟨range, hrange, rfl⟩ := ofCode_integer_eq_ok_iff.mp hread
    simp only [IntRange.read, Except.ok.injEq] at hrange
    subst hrange
    exact .bareInteger
  · obtain ⟨shape, hshape, -⟩ := ofCode_text_eq_ok_iff.mp hread
    obtain ⟨amount, hamount, -⟩ := TextShape.read_eq_ok_iff.mp hshape
    simp at hamount
  · obtain ⟨size, hsize, -⟩ := ofCode_image_eq_ok_iff.mp hread
    have hoptions := ImageSize.read_eq_ok_iff.mp hsize
    simp at hoptions

theorem written_of_ofCode_some {code options : List Char} {type : FieldType}
    (hcode : code ∈ [['i'], ['t'], ['p']]) (hread : ofCode code (some options) = .ok type) :
    Written (code ++ ':' :: options) type := by
  simp only [List.mem_cons, List.not_mem_nil, or_false] at hcode
  rcases hcode with rfl | rfl | rfl
  · obtain ⟨range, hrange, rfl⟩ := ofCode_integer_eq_ok_iff.mp hread
    obtain ⟨a, b, m, n, hmn, hn, rfl, ha, hb, rfl⟩ := IntRange.read_some_eq_ok_iff.mp hrange
    exact .integer ha hb hmn hn
  · obtain ⟨⟨unit, counts⟩, hshape, rfl⟩ := ofCode_text_eq_ok_iff.mp hread
    obtain ⟨amount, hoptions, hwritten⟩ := TextShape.read_eq_ok_iff.mp hshape
    rw [Option.getD_some] at hoptions
    subst hoptions
    cases hwritten with
    | fixed ha h => exact .fixedText ha h unit
    | range ha hb h hn => exact .rangeText ha hb h hn unit
  · obtain ⟨size, hsize, rfl⟩ := ofCode_image_eq_ok_iff.mp hread
    have hoptions := ImageSize.read_eq_ok_iff.mp hsize
    rw [Option.getD_some] at hoptions
    subst hoptions
    exact .image (Numeral.digits_of_isNumeral size.width_isNumeral)
      (Numeral.digits_of_isNumeral size.height_isNumeral) (by simp) (by simp)

/-- The characters of written type strings: ASCII digits, codes, units and separators. -/
def isTypeChar (c : Char) : Bool :=
  c.isDigit || c ∈ ['i', 't', 'p', ':', '-', '*', 'w', 's']

theorem isTypeChar_of_digits {cs : List Char} {n : Nat} (h : Digits cs n) :
    cs.all isTypeChar = true := by
  rw [List.all_eq_true]
  intro c hc
  simp [isTypeChar, h.isDigit c hc]

theorem isTypeChar_unit (unit : TextUnit) : isTypeChar unit.code = true := by
  cases unit <;> rfl

/-- A written type string has no sign, blank, line break or digit beyond ASCII in it. -/
theorem Written.all_isTypeChar {cs : List Char} {type : FieldType} (h : Written cs type) :
    cs.all isTypeChar = true := by
  have hmarks : isTypeChar 'i' ∧ isTypeChar 't' ∧ isTypeChar 'p' ∧ isTypeChar ':' ∧
      isTypeChar '-' ∧ isTypeChar '*' := by decide
  cases h with
  | bareInteger => rfl
  | integer ha hb =>
    simp [isTypeChar_of_digits ha, isTypeChar_of_digits hb, hmarks]
  | fixedText ha _ unit =>
    simp [isTypeChar_of_digits ha, isTypeChar_unit unit, hmarks]
  | rangeText ha hb _ _ unit =>
    simp [isTypeChar_of_digits ha, isTypeChar_of_digits hb, isTypeChar_unit unit, hmarks]
  | image ha hb =>
    simp [isTypeChar_of_digits ha, isTypeChar_of_digits hb, hmarks]

theorem Written.count_colon {cs : List Char} {type : FieldType} (h : Written cs type) :
    cs.count ':' ≤ 1 := by
  have hdigits : ∀ {a : List Char} {n : Nat}, Digits a n → a.count ':' = 0 := fun ha =>
    List.count_eq_zero.mpr (ha.notMem rfl)
  have hunit : ∀ unit : TextUnit, [unit.code].count ':' = 0 := by
    intro unit
    cases unit <;> rfl
  cases h with
  | bareInteger => decide
  | integer ha hb => simp [hdigits ha, hdigits hb]
  | fixedText ha _ unit => simp only [List.count_cons, List.count_append, hdigits ha, hunit]; decide
  | rangeText ha hb _ _ unit =>
    simp only [List.count_cons, List.count_append, hdigits ha, hdigits hb, hunit]
    decide
  | image ha hb => simp [hdigits ha, hdigits hb]

/-- A text with code `i`, `t` or `p` is read exactly if it is written, and then as what is written.
Every other text with such a code is refused; in particular one with a second colon or with a
character beyond the few that make up type strings. -/
theorem parse_ok_iff_written {s : String} (hcode : codeText s.toList ∈ [['i'], ['t'], ['p']]) :
    (∀ type, parse s = .ok type ↔ Written s.toList type) ∧
      ((¬ ∃ type, Written s.toList type) → ∃ cause, parse s = .error cause) ∧
      ∀ type, parse s = .ok type →
        s.toList.all isTypeChar = true ∧ s.toList.count ':' ≤ 1 := by
  have hiff : ∀ type, parse s = .ok type ↔ Written s.toList type := by
    intro type
    refine ⟨fun hread => ?_, fun hwritten => hwritten.read_eq⟩
    unfold parse at hread
    rcases bare_or_withOptions s.toList with ⟨hnot, hself⟩ | ⟨options, hnot, hself⟩
    · rw [read_bare hnot] at hread
      rw [hself] at hcode
      exact written_of_ofCode_none hcode hread
    · rw [hself, read_withOptions hnot] at hread
      rw [hself]
      exact written_of_ofCode_some hcode hread
  refine ⟨hiff, fun hnone => ?_, fun type hread => ?_⟩
  · cases hread : parse s with
    | error cause => exact ⟨cause, rfl⟩
    | ok type => exact absurd ⟨type, (hiff type).mp hread⟩ hnone
  · have hwritten := (hiff type).mp hread
    exact ⟨hwritten.all_isTypeChar, hwritten.count_colon⟩

/-- Leading zeros do not count, neither for the value nor for its bound. -/
theorem parse_leadingZeros :
    codeText "t:000007-10w".toList ∈ [['i'], ['t'], ['p']] ∧
      parse "t:000007-10w" = .ok (.text ⟨.words, .range ⟨7, 10, by decide⟩⟩) := by
  have hcode : codeText "t:000007-10w".toList ∈ [['i'], ['t'], ['p']] := by decide
  have h7 : Digits ['0', '0', '0', '0', '0', '7'] 7 := Numeral.digits_iff.mpr ⟨rfl, rfl⟩
  have h10 : Digits ['1', '0'] 10 := Numeral.digits_iff.mpr ⟨rfl, rfl⟩
  exact ⟨hcode, ((parse_ok_iff_written hcode).1 _).mpr
    (.rangeText h7 h10 (by decide) (by decide) .words)⟩

end FieldType

end Specimen
