import Specimen.Proofs.Arithmetic
import Specimen.Proofs.Declarations

/-!
# Why type strings are refused

A text may be wrong in several ways at once, and one cause is reported. `Refused cs cause` lists the
causes with the conditions under which each of them is the reported one: an unknown code comes
before anything in the options, a wrong unit before a wrong amount, a malformed or unfit bound
before an inverted range. The reader refuses exactly the listed texts, each for its listed cause
(`parse_error_iff_refused`).
-/

namespace Specimen

open Numeral (Digits)

/-! ## Ranges of numerals -/

/-- Two numerals with a hyphen between them, of numbers that do not exceed a bound. -/
def NumeralRange (bound : Nat) (cs : List Char) (m n : Nat) : Prop :=
  ∃ a b, cs = a ++ '-' :: b ∧ Digits a m ∧ Digits b n ∧ m ≤ bound ∧ n ≤ bound

/-- A range of numerals whose first number is the greater one, and the range as it is reported: both
numbers without leading zeros. -/
def InvertedNumerals (bound : Nat) (cs text : List Char) : Prop :=
  ∃ m n, NumeralRange bound cs m n ∧ n < m ∧
    text = rangeText (Numeral.ofNat m) (Numeral.ofNat n)

theorem readUpTo?_cut_eq_some_iff {bound : Nat} {cs : List Char} {m n : Nat} :
    (do let (min, max) ← Text.cut? '-' cs
        let min ← Numeral.readUpTo? bound min
        let max ← Numeral.readUpTo? bound max
        some (min, max)) = some (m, n) ↔ NumeralRange bound cs m n := by
  simp only [Option.bind_eq_bind, Option.bind_eq_some_iff, Prod.exists, Option.some.injEq,
    Prod.mk.injEq, Text.cut?_eq_some_iff, Numeral.readUpTo?_eq_some_iff]
  constructor
  · rintro ⟨a, b, ⟨hcs, -⟩, m', ⟨ha, hm⟩, n', ⟨hb, hn⟩, rfl, rfl⟩
    exact ⟨a, b, hcs, ha, hb, hm, hn⟩
  · rintro ⟨a, b, hcs, ha, hb, hm, hn⟩
    exact ⟨a, b, ⟨hcs, ha.notMem rfl⟩, m, ⟨ha, hm⟩, n, ⟨hb, hn⟩, rfl, rfl⟩

/-! ## Options of integers -/

namespace IntRange

/-- Why options of integers are refused. -/
inductive Refused (options : List Char) : TypeError → Prop where
  /-- They are not two numerals, or a number is no integer of 64 bits. -/
  | malformed (h : ¬ ∃ m n, NumeralRange 9223372036854775807 options m n) :
      Refused options (.invalidIntOptions (String.ofList options))
  | inverted {text : List Char} (h : InvertedNumerals 9223372036854775807 options text) :
      Refused options (.invertedRange (String.ofList text))

theorem ofBounds_eq_error_iff {m n : Nat} (hm : m ≤ largestBound) (hn : n ≤ largestBound)
    {cause : TypeError} :
    ofBounds (.ofNat m) (.ofNat n) = .error cause ↔
      n < m ∧ cause =
        .invertedRange (String.ofList (rangeText (Numeral.ofNat m) (Numeral.ofNat n))) := by
  have hle : Int64.ofNat m ≤ Int64.ofNat n ↔ m ≤ n := by
    rw [Int64.le_iff_toInt_le, toInt_ofNat hm, toInt_ofNat hn, Int.ofNat_le]
  have htext : boundsText (.ofNat m) (.ofNat n) =
      rangeText (Numeral.ofNat m) (Numeral.ofNat n) := by
    rw [boundsText, toInt_ofNat hm, toInt_ofNat hn]
    rfl
  rw [ofBounds, dite_eq_error_iff, hle, htext, Nat.not_le, eq_comm]

theorem read_some_of_numerals {options : List Char} {m n : Nat}
    (h : NumeralRange largestBound options m n) :
    read (some options) = ofBounds (.ofNat m) (.ofNat n) := by
  have hbounds := readUpTo?_cut_eq_some_iff.mpr h
  unfold read
  simp only [hbounds]

theorem read_some_of_not_numerals {options : List Char}
    (h : ¬ ∃ m n, NumeralRange largestBound options m n) :
    read (some options) = .error (.invalidIntOptions (String.ofList options)) := by
  simp only [read]
  split
  · rename_i m n hbounds
    exact absurd ⟨m, n, readUpTo?_cut_eq_some_iff.mp hbounds⟩ h
  · rfl

theorem read_some_eq_error_iff {options : List Char} {cause : TypeError} :
    read (some options) = .error cause ↔ Refused options cause := by
  constructor
  · intro hread
    by_cases hnumerals : ∃ m n, NumeralRange largestBound options m n
    · obtain ⟨m, n, h⟩ := hnumerals
      obtain ⟨-, -, -, -, -, hm, hn⟩ := id h
      rw [read_some_of_numerals h, ofBounds_eq_error_iff hm hn] at hread
      obtain ⟨hlt, rfl⟩ := hread
      exact .inverted ⟨m, n, h, hlt, rfl⟩
    · rw [read_some_of_not_numerals hnumerals, Except.error.injEq] at hread
      subst hread
      exact .malformed hnumerals
  · intro h
    cases h with
    | malformed h => exact read_some_of_not_numerals h
    | inverted h =>
      obtain ⟨m, n, h, hlt, rfl⟩ := h
      obtain ⟨-, -, -, -, -, hm, hn⟩ := id h
      rw [read_some_of_numerals h, ofBounds_eq_error_iff hm hn]
      exact ⟨hlt, rfl⟩

end IntRange

/-! ## Options of floats -/

namespace FloatRange

/-- A range of two literals whose first float is the greater one, and the range as it is reported:
the floats as they are displayed. -/
def Inverted (options text : List Char) : Prop :=
  ∃ a b p q min max, WrittenBounds options a b p q ∧ RoundsTo p min ∧ RoundsTo q max ∧
    (min.isFinite ∧ max.isFinite) ∧ max < min ∧ text = boundsText min max

/-- Why options of floats are refused. -/
inductive Refused (options : List Char) : TypeError → Prop where
  /-- They are not two decimal literals. -/
  | malformed (h : ¬ ∃ a b p q, WrittenBounds options a b p q) :
      Refused options (.invalidFloatOptions (String.ofList options))
  /-- A literal rounds to infinity, whatever the order. -/
  | infinite {a b : List Char} {p q : ℚ} {min max : Float} (h : WrittenBounds options a b p q)
      (hmin : RoundsTo p min) (hmax : RoundsTo q max) (hfinite : ¬ (min.isFinite ∧ max.isFinite)) :
      Refused options (.invalidFloatOptions (String.ofList (boundsText min max)))
  | inverted {text : List Char} (h : Inverted options text) :
      Refused options (.invertedRange (String.ofList text))

theorem ofBounds_eq_error_iff {min max : Float} {cause : TypeError} :
    ofBounds min max = .error cause ↔
      (¬ (min.isFinite ∧ max.isFinite) ∧
          cause = .invalidFloatOptions (String.ofList (boundsText min max))) ∨
        ((min.isFinite ∧ max.isFinite) ∧ max < min ∧
          cause = .invertedRange (String.ofList (boundsText min max))) := by
  unfold ofBounds
  by_cases hfinite : min.isFinite ∧ max.isFinite
  · have hlt : max < min ↔ ¬ min ≤ max := by
      rw [← Binary64.not_lt_iff hfinite.2 hfinite.1, not_not]
    rw [dif_pos hfinite, dite_eq_error_iff, hlt, eq_comm (b := cause)]
    simp only [hfinite, not_true, false_and, true_and, false_or, and_self]
  · rw [dif_neg hfinite, Except.error.injEq, eq_comm]
    simp only [hfinite, not_false_eq_true, true_and, false_and, or_false]

/-- What options that are two literals are read as is decided by the floats of the literals. -/
theorem WrittenBounds.read_some {options a b : List Char} {p q : ℚ} {min max : Float}
    (h : WrittenBounds options a b p q) (hmin : RoundsTo p min) (hmax : RoundsTo q max) :
    read (some options) = ofBounds min max := by
  have hcut := h.cutBounds?
  obtain ⟨-, ha, hb⟩ := h
  obtain ⟨d, hd, rfl⟩ := ha.read?
  obtain ⟨d', hd', rfl⟩ := hb.read?
  rw [← Decimal.roundsTo_value_iff.mp hmin, ← Decimal.roundsTo_value_iff.mp hmax]
  simp only [read, hcut, hd, hd', Option.bind_eq_bind, Option.bind_some]

theorem read_some_of_not_written {options : List Char}
    (h : ¬ ∃ a b p q, WrittenBounds options a b p q) :
    read (some options) = .error (.invalidFloatOptions (String.ofList options)) := by
  simp only [read]
  split
  · rename_i min max hbounds
    simp only [Option.bind_eq_bind, Option.bind_eq_some_iff, Prod.exists] at hbounds
    obtain ⟨a, b, hcut, d, hd, d', hd', -⟩ := hbounds
    exact absurd ⟨a, b, d.value, d'.value, eq_append_of_cutBounds? hcut,
      Decimal.literal_of_read? hd, Decimal.literal_of_read? hd'⟩ h
  · rfl

theorem read_some_eq_error_iff {options : List Char} {cause : TypeError} :
    read (some options) = .error cause ↔ Refused options cause := by
  constructor
  · intro hread
    by_cases hwritten : ∃ a b p q, WrittenBounds options a b p q
    · obtain ⟨a, b, p, q, h⟩ := hwritten
      obtain ⟨d, -, rfl⟩ := h.2.1.read?
      obtain ⟨d', -, rfl⟩ := h.2.2.read?
      rw [h.read_some d.roundsTo_toFloat d'.roundsTo_toFloat, ofBounds_eq_error_iff] at hread
      rcases hread with ⟨hinfinite, rfl⟩ | ⟨hfinite, hlt, rfl⟩
      · exact .infinite h d.roundsTo_toFloat d'.roundsTo_toFloat hinfinite
      · exact .inverted ⟨a, b, _, _, _, _, h, d.roundsTo_toFloat, d'.roundsTo_toFloat, hfinite,
          hlt, rfl⟩
    · rw [read_some_of_not_written hwritten, Except.error.injEq] at hread
      subst hread
      exact .malformed hwritten
  · intro h
    cases h with
    | malformed h => exact read_some_of_not_written h
    | infinite h hmin hmax hinfinite =>
      rw [h.read_some hmin hmax, ofBounds_eq_error_iff]
      exact Or.inl ⟨hinfinite, rfl⟩
    | inverted h =>
      obtain ⟨a, b, p, q, min, max, h, hmin, hmax, hfinite, hlt, rfl⟩ := h
      rw [h.read_some hmin hmax, ofBounds_eq_error_iff]
      exact Or.inr ⟨hfinite, hlt, rfl⟩

end FloatRange

/-! ## Options of texts -/

theorem CountRange.ofBounds_eq_error_iff {min max : Nat} {cause : TypeError} :
    CountRange.ofBounds min max = .error cause ↔
      max < min ∧ cause =
        .invertedRange (String.ofList (rangeText (Numeral.ofNat min) (Numeral.ofNat max))) := by
  rw [CountRange.ofBounds, dite_eq_error_iff, Nat.not_le, eq_comm (b := cause)]
  rfl

theorem TextUnit.ofCode?_eq_none_iff {c : Char} :
    TextUnit.ofCode? c = none ↔ c ≠ 'w' ∧ c ≠ 's' := by
  unfold TextUnit.ofCode?
  split <;> simp_all

namespace TextShape

/-- Why options of texts are refused. -/
inductive Refused : List Char → TypeError → Prop where
  /-- No options have no unit. -/
  | noUnit : Refused [] (.invalidTextUnit "")
  /-- The last character is no unit, whatever stands before it. -/
  | unit {amount : List Char} {last : Char} (hw : last ≠ 'w') (hs : last ≠ 's') :
      Refused (amount ++ [last]) (.invalidTextUnit (String.ofList [last]))
  /-- What stands before the unit is neither a numeral nor two, or a number is too large. -/
  | malformed {amount : List Char} {unit : TextUnit}
      (hcount : ¬ ∃ count, Digits amount count ∧ count ≤ 10000)
      (hrange : ¬ ∃ m n, NumeralRange 10000 amount m n) :
      Refused (amount ++ [unit.code])
        (.invalidTextOptions (String.ofList (amount ++ [unit.code])))
  | inverted {amount text : List Char} {unit : TextUnit}
      (h : InvertedNumerals 10000 amount text) :
      Refused (amount ++ [unit.code]) (.invertedRange (String.ofList text))

theorem read_append_unit (amount : List Char) (unit : TextUnit) :
    read (amount ++ [unit.code]) =
      match readCounts? amount with
      | none => .error (.invalidTextOptions (String.ofList (amount ++ [unit.code])))
      | some (count, none) => .ok ⟨unit, .fixed count⟩
      | some (min, some max) =>
        (CountRange.ofBounds min max).map fun counts => ⟨unit, .range counts⟩ := by
  have hlast : (amount ++ [unit.code]).getLast? = some unit.code := by simp
  have hunit : TextUnit.ofCode? unit.code = some unit := TextUnit.ofCode?_eq_some_iff.mpr rfl
  unfold read
  simp only [hlast, hunit, List.dropLast_concat]
  rfl

theorem read_append_of_not_unit (amount : List Char) {last : Char}
    (h : TextUnit.ofCode? last = none) :
    read (amount ++ [last]) = .error (.invalidTextUnit (String.ofList [last])) := by
  have hlast : (amount ++ [last]).getLast? = some last := by simp
  unfold read
  simp only [hlast, h]

theorem readCounts?_eq_none_iff {amount : List Char} :
    readCounts? amount = none ↔
      (¬ ∃ count, Digits amount count ∧ count ≤ maxTextAmount) ∧
        ¬ ∃ m n, NumeralRange maxTextAmount amount m n := by
  constructor
  · intro h
    constructor
    · rintro ⟨count, hcount⟩
      rw [readCounts?_eq_fixed_iff.mpr hcount] at h
      contradiction
    · rintro ⟨m, n, hrange⟩
      rw [readCounts?_eq_range_iff.mpr hrange] at h
      contradiction
  · rintro ⟨hcount, hrange⟩
    cases h : readCounts? amount with
    | none => rfl
    | some counts =>
      obtain ⟨m, _ | n⟩ := counts
      · exact absurd ⟨m, readCounts?_eq_fixed_iff.mp h⟩ hcount
      · exact absurd ⟨m, n, readCounts?_eq_range_iff.mp h⟩ hrange

theorem read_append_unit_eq_error_iff {amount : List Char} {unit : TextUnit} {cause : TypeError} :
    read (amount ++ [unit.code]) = .error cause ↔
      (readCounts? amount = none ∧
        cause = .invalidTextOptions (String.ofList (amount ++ [unit.code]))) ∨
      ∃ text, InvertedNumerals maxTextAmount amount text ∧
        cause = .invertedRange (String.ofList text) := by
  rw [read_append_unit]
  cases h : readCounts? amount with
  | none =>
    have hrange := (readCounts?_eq_none_iff.mp h).2
    simp only [Except.error.injEq, true_and]
    constructor
    · rintro rfl
      exact Or.inl rfl
    · rintro (rfl | ⟨text, ⟨m, n, hnumerals, -⟩, -⟩)
      · rfl
      · exact absurd ⟨m, n, hnumerals⟩ hrange
  | some counts =>
    obtain ⟨m, _ | n⟩ := counts
    · simp only [reduceCtorEq, false_and, false_or, false_iff]
      rintro ⟨text, ⟨m', n', hnumerals, -⟩, -⟩
      rw [readCounts?_eq_range_iff.mpr hnumerals] at h
      simp at h
    · simp only [map_eq_error_iff, CountRange.ofBounds_eq_error_iff, reduceCtorEq, false_and,
        false_or]
      constructor
      · rintro ⟨hlt, rfl⟩
        exact ⟨_, ⟨m, n, readCounts?_eq_range_iff.mp h, hlt, rfl⟩, rfl⟩
      · rintro ⟨text, ⟨m', n', hnumerals, hlt, rfl⟩, rfl⟩
        rw [readCounts?_eq_range_iff.mpr hnumerals, Option.some.injEq, Prod.mk.injEq,
          Option.some.injEq] at h
        obtain ⟨rfl, rfl⟩ := h
        exact ⟨hlt, rfl⟩

theorem read_eq_error_iff {options : List Char} {cause : TypeError} :
    read options = .error cause ↔ Refused options cause := by
  constructor
  · intro hread
    rcases List.eq_nil_or_concat options with rfl | ⟨amount, last, rfl⟩
    · obtain rfl : TypeError.invalidTextUnit "" = cause := Except.error.inj hread
      exact .noUnit
    · rw [List.concat_eq_append] at hread ⊢
      cases hunit : TextUnit.ofCode? last with
      | none =>
        rw [read_append_of_not_unit amount hunit, Except.error.injEq] at hread
        subst hread
        obtain ⟨hw, hs⟩ := TextUnit.ofCode?_eq_none_iff.mp hunit
        exact .unit hw hs
      | some unit =>
        obtain rfl := TextUnit.ofCode?_eq_some_iff.mp hunit
        rcases read_append_unit_eq_error_iff.mp hread with ⟨hnone, rfl⟩ | ⟨text, h, rfl⟩
        · obtain ⟨hcount, hrange⟩ := readCounts?_eq_none_iff.mp hnone
          exact .malformed hcount hrange
        · exact .inverted h
  · intro h
    cases h with
    | noUnit => rfl
    | unit hw hs => exact read_append_of_not_unit _ (TextUnit.ofCode?_eq_none_iff.mpr ⟨hw, hs⟩)
    | malformed hcount hrange =>
      exact read_append_unit_eq_error_iff.mpr
        (Or.inl ⟨readCounts?_eq_none_iff.mpr ⟨hcount, hrange⟩, rfl⟩)
    | inverted h => exact read_append_unit_eq_error_iff.mpr (Or.inr ⟨_, h, rfl⟩)

end TextShape

/-! ## Options of images -/

namespace ImageSize

/-- Why options of images are refused: they are not two numerals with an asterisk between them. -/
inductive Refused (options : List Char) : TypeError → Prop where
  | malformed (h : ¬ ∃ a b m n, options = a ++ '*' :: b ∧ Digits a m ∧ Digits b n) :
      Refused options (.invalidImageOptions (String.ofList options))

/-- Whatever is refused is quoted as it was given. -/
theorem cause_of_read {options : List Char} {cause : TypeError}
    (h : read options = .error cause) :
    cause = .invalidImageOptions (String.ofList options) := by
  unfold read at h
  split at h
  · exact (Except.error.inj h).symm
  · rename_i width height hcut
    obtain ⟨rfl, -⟩ := Text.cut?_eq_some_iff.mp hcut
    rw [ofNumerals, dite_eq_error_iff] at h
    rw [← h.2]
    simp [String.ofList_append, ← String.toList_inj]

theorem exists_read_iff {options : List Char} :
    (∃ size, read options = .ok size) ↔
      ∃ a b m n, options = a ++ '*' :: b ∧ Digits a m ∧ Digits b n := by
  simp only [read_eq_ok_iff]
  constructor
  · rintro ⟨size, rfl⟩
    exact ⟨_, _, _, _, rfl, Numeral.digits_of_isNumeral size.width_isNumeral,
      Numeral.digits_of_isNumeral size.height_isNumeral⟩
  · rintro ⟨a, b, m, n, rfl, ha, hb⟩
    exact ⟨⟨String.ofList a, String.ofList b, by simpa using ha.isNumeral,
      by simpa using hb.isNumeral⟩, by simp⟩

theorem read_eq_error_iff {options : List Char} {cause : TypeError} :
    read options = .error cause ↔ Refused options cause := by
  constructor
  · intro h
    rw [cause_of_read h]
    refine .malformed fun hnumerals => ?_
    obtain ⟨size, hsize⟩ := exists_read_iff.mpr hnumerals
    rw [h] at hsize
    contradiction
  · rintro ⟨h⟩
    cases hread : read options with
    | ok size => exact absurd (exists_read_iff.mp ⟨size, hread⟩) h
    | error cause => rw [cause_of_read hread]

end ImageSize

/-! ## Whole type strings -/

namespace FieldType

/-- `Refused cs cause`: the text is no type string, and this is the cause that is reported. -/
inductive Refused : List Char → TypeError → Prop where
  /-- What stands before the first colon, or the whole text if it has none, is no code. -/
  | code {cs : List Char} (h : codeText cs ∉ [['i'], ['f'], ['t'], ['p']]) :
      Refused cs (.unsupportedCode (String.ofList (codeText cs)))
  | integer {options : List Char} {cause : TypeError} (h : IntRange.Refused options cause) :
      Refused ('i' :: ':' :: options) cause
  | float {options : List Char} {cause : TypeError} (h : FloatRange.Refused options cause) :
      Refused ('f' :: ':' :: options) cause
  | text {options : List Char} {cause : TypeError} (h : TextShape.Refused options cause) :
      Refused ('t' :: ':' :: options) cause
  /-- A text without options has no unit. -/
  | bareText : Refused ['t'] (.invalidTextUnit "")
  | image {options : List Char} {cause : TypeError} (h : ImageSize.Refused options cause) :
      Refused ('p' :: ':' :: options) cause
  /-- An image without options has no size. -/
  | bareImage : Refused ['p'] (.invalidImageOptions "")

theorem ofCode_of_notMem {code : List Char} (h : code ∉ [['i'], ['f'], ['t'], ['p']])
    (options : Option (List Char)) :
    ofCode code options = .error (.unsupportedCode (String.ofList code)) := by
  unfold ofCode
  split <;> simp_all

theorem refused_of_notMem {cs code : List Char} {options : Option (List Char)} {cause : TypeError}
    (hself : codeText cs = code) (hcode : code ∉ [['i'], ['f'], ['t'], ['p']])
    (h : ofCode code options = .error cause) : Refused cs cause := by
  subst hself
  rw [ofCode_of_notMem hcode, Except.error.injEq] at h
  exact h ▸ .code hcode

theorem refused_of_ofCode_none {code : List Char} {cause : TypeError} (hcolon : ':' ∉ code)
    (h : ofCode code none = .error cause) : Refused code cause := by
  by_cases hcode : code ∈ [['i'], ['f'], ['t'], ['p']]
  · simp only [List.mem_cons, List.not_mem_nil, or_false] at hcode
    rcases hcode with rfl | rfl | rfl | rfl
    · cases h
    · cases h
    · cases h
      exact .bareText
    · cases h
      exact .bareImage
  · exact refused_of_notMem (codeText_eq_self hcolon) hcode h

theorem refused_of_ofCode_some {code options : List Char} {cause : TypeError} (hcolon : ':' ∉ code)
    (h : ofCode code (some options) = .error cause) : Refused (code ++ ':' :: options) cause := by
  by_cases hcode : code ∈ [['i'], ['f'], ['t'], ['p']]
  · simp only [List.mem_cons, List.not_mem_nil, or_false] at hcode
    rcases hcode with rfl | rfl | rfl | rfl
    · exact .integer (IntRange.read_some_eq_error_iff.mp (map_eq_error_iff.mp h))
    · exact .float (FloatRange.read_some_eq_error_iff.mp (map_eq_error_iff.mp h))
    · exact .text (TextShape.read_eq_error_iff.mp (map_eq_error_iff.mp h))
    · exact .image (ImageSize.read_eq_error_iff.mp (map_eq_error_iff.mp h))
  · exact refused_of_notMem (codeText_append hcolon options) hcode h

theorem Refused.read_eq {cs : List Char} {cause : TypeError} (h : Refused cs cause) :
    read cs = .error cause := by
  cases h with
  | code h =>
    rcases bare_or_withOptions cs with ⟨hnot, hself⟩ | ⟨options, hnot, hself⟩
    · rw [read_bare hnot, hself]
      exact ofCode_of_notMem (hself ▸ h) none
    · have hread := read_withOptions hnot options
      rw [← hself] at hread
      rw [hread]
      exact ofCode_of_notMem h (some options)
  | integer h =>
    rw [read_code_options (by decide)]
    exact map_eq_error_iff.mpr (IntRange.read_some_eq_error_iff.mpr h)
  | float h =>
    rw [read_code_options (by decide)]
    exact map_eq_error_iff.mpr (FloatRange.read_some_eq_error_iff.mpr h)
  | text h =>
    rw [read_code_options (by decide)]
    exact map_eq_error_iff.mpr (TextShape.read_eq_error_iff.mpr h)
  | bareText => rfl
  | image h =>
    rw [read_code_options (by decide)]
    exact map_eq_error_iff.mpr (ImageSize.read_eq_error_iff.mpr h)
  | bareImage => rfl

theorem read_eq_error_iff {cs : List Char} {cause : TypeError} :
    read cs = .error cause ↔ Refused cs cause := by
  constructor
  · intro h
    rcases bare_or_withOptions cs with ⟨hnot, -⟩ | ⟨options, hnot, hself⟩
    · rw [read_bare hnot] at h
      exact refused_of_ofCode_none hnot h
    · rw [hself, read_withOptions hnot] at h
      rw [hself]
      exact refused_of_ofCode_some hnot h
  · exact Refused.read_eq

/-- A range is reported as inverted for the codes with ranges, and only if nothing else is wrong. -/
theorem refused_invertedRange_iff {cs : List Char} {range : String} :
    Refused cs (.invertedRange range) ↔
      ∃ text, range = String.ofList text ∧
        ((∃ options, cs = 'i' :: ':' :: options ∧
            InvertedNumerals 9223372036854775807 options text) ∨
          (∃ options, cs = 'f' :: ':' :: options ∧ FloatRange.Inverted options text) ∨
          ∃ amount unit, cs = 't' :: ':' :: (amount ++ [TextUnit.code unit]) ∧
            InvertedNumerals 10000 amount text) := by
  constructor
  · intro h
    cases h with
    | integer h =>
      cases h with
      | inverted h => exact ⟨_, rfl, Or.inl ⟨_, rfl, h⟩⟩
    | float h =>
      cases h with
      | inverted h => exact ⟨_, rfl, Or.inr (Or.inl ⟨_, rfl, h⟩)⟩
    | text h =>
      cases h with
      | inverted h => exact ⟨_, rfl, Or.inr (Or.inr ⟨_, _, rfl, h⟩)⟩
    | image h => cases h
  · rintro ⟨text, rfl, ⟨options, rfl, h⟩ | ⟨options, rfl, h⟩ | ⟨amount, unit, rfl, h⟩⟩
    · exact .integer (.inverted h)
    · exact .float (.inverted h)
    · exact .text (.inverted h)

end FieldType

/-- The cause that a model reports for a field is the one for which its type string is refused. -/
theorem Model.parse_invalidField {declarations : List (String × String)} {field typeString : String}
    {cause : TypeError}
    (h : Model.parse declarations = .error (.invalidField field typeString cause)) :
    (field, typeString) ∈ declarations ∧ FieldType.parse typeString = .error cause := by
  obtain ⟨k, hfault, -⟩ := (Model.fault_of_parse declarations).2 _ h
  cases hfault with
  | invalidField hget hparse => exact ⟨List.mem_of_getElem? hget, hparse⟩

/-- A text is refused exactly for the cause that is listed for it, so that of several faults one is
reported. A range is reported as inverted, with its bounds written anew, exactly if the options are
well formed, the bounds fit and the first exceeds the second. A model passes on the cause for which
a type string is refused. -/
theorem FieldType.parse_error_iff_refused :
    (∀ (s : String) (cause : TypeError),
      FieldType.parse s = .error cause ↔ FieldType.Refused s.toList cause) ∧
    (∀ s range : String, FieldType.parse s = .error (.invertedRange range) ↔
      ∃ text, range = String.ofList text ∧
        ((∃ options, s.toList = 'i' :: ':' :: options ∧
            InvertedNumerals 9223372036854775807 options text) ∨
          (∃ options, s.toList = 'f' :: ':' :: options ∧ FloatRange.Inverted options text) ∨
          ∃ amount unit, s.toList = 't' :: ':' :: (amount ++ [TextUnit.code unit]) ∧
            InvertedNumerals 10000 amount text)) ∧
    ∀ (declarations : List (String × String)) (field typeString : String) (cause : TypeError),
      Model.parse declarations = .error (.invalidField field typeString cause) →
        (field, typeString) ∈ declarations ∧ FieldType.Refused typeString.toList cause := by
  refine ⟨fun s cause => FieldType.read_eq_error_iff, fun s range => ?_,
    fun declarations field typeString cause h => ?_⟩
  · exact FieldType.read_eq_error_iff.trans FieldType.refused_invertedRange_iff
  · obtain ⟨hmem, hparse⟩ := Model.parse_invalidField h
    exact ⟨hmem, FieldType.read_eq_error_iff.mp hparse⟩

/-- Of a wrong unit and an inverted range the unit is reported, and an inverted range is reported
without its leading zero, also by a model. -/
theorem FieldType.parse_unit_before_inverted :
    FieldType.parse "t:20-3x" = .error (.invalidTextUnit "x") ∧
      FieldType.parse "i:09-3" = .error (.invertedRange "9-3") ∧
      Model.parse [("roll", "i:09-3")] =
        .error (.invalidField "roll" "i:09-3" (.invertedRange "9-3")) ∧
      FieldType.Refused "i:09-3".toList (.invertedRange "9-3") := by
  have h9 : Digits ['0', '9'] 9 := Numeral.digits_iff.mpr ⟨rfl, rfl⟩
  have h3 : Digits ['3'] 3 := Numeral.digits_iff.mpr ⟨rfl, rfl⟩
  have hmodel : Model.parse [("roll", "i:09-3")] =
      .error (.invalidField "roll" "i:09-3" (.invertedRange "9-3")) := rfl
  have hunit : TextShape.Refused (['2', '0', '-', '3'] ++ ['x']) (.invalidTextUnit "x") :=
    .unit (by decide) (by decide)
  refine ⟨(parse_error_iff_refused.1 _ _).mpr ?_, (parse_error_iff_refused.2.1 _ _).mpr ?_, hmodel,
    (parse_error_iff_refused.2.2 _ _ _ _ hmodel).2⟩
  · exact .text hunit
  · exact ⟨['9', '-', '3'], rfl, Or.inl ⟨['0', '9', '-', '3'], rfl, 9, 3,
      ⟨_, _, rfl, h9, h3, by decide, by decide⟩, by decide, rfl⟩⟩

end Specimen
