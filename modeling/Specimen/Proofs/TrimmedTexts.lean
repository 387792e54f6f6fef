import Mathlib.Data.List.Basic
import Specimen.FieldType.Printer
import Specimen.Text.Blank
import Specimen.Proofs.Digits
import Specimen.Proofs.Encoding

/-!
# Texts without blanks at their ends

Trimming leaves the one text that has no blank at its ends and only blanks around it in the whole
(`trim_eq_iff`), and trimming at the end stops at the last character that is not blank
(`trimRight_append`). Canonical type strings have no blank anywhere, whatever their numbers are
(`unbroken_canonicalText`).
-/

namespace Specimen

namespace Text

/-! ## Trimming -/

theorem trimRight_append_blank {blank : List Char} (h : ∀ c ∈ blank, isBlank c = true)
    (cs : List Char) : trimRight (cs ++ blank) = trimRight cs := by
  unfold trimRight
  rw [List.reverse_append, List.dropWhile_append_of_pos]
  exact fun c hc => h c (List.mem_reverse.mp hc)

/-- Trimming at the end does not go beyond a character that is not blank. -/
theorem trimRight_append {c : Char} (h : isBlank c = false) (before after : List Char) :
    trimRight (before ++ c :: after) = before ++ c :: trimRight after := by
  unfold trimRight
  rw [List.reverse_append, List.reverse_cons, List.dropWhile_append, List.dropWhile_append]
  by_cases hafter : after.reverse.dropWhile isBlank = []
  · simp [hafter, h]
  · simp [hafter]

theorem mem_of_mem_trimRight {c : Char} {cs : List Char} (h : c ∈ trimRight cs) : c ∈ cs := by
  rw [trimRight, List.mem_reverse] at h
  exact List.mem_reverse.mp ((List.dropWhile_sublist isBlank).mem h)

/-- A text with blanks around it. -/
def Padded (t cs : List Char) : Prop :=
  ∃ left right, cs = left ++ t ++ right ∧ (∀ c ∈ left, isBlank c = true) ∧
    ∀ c ∈ right, isBlank c = true

/-- A text without blanks at its ends. -/
structure Tight (t : List Char) : Prop where
  head : ∀ c ∈ t.head?, isBlank c = false
  last : ∀ c ∈ t.getLast?, isBlank c = false

/-- `Trimmed cs t`: the text `t` without blanks at its ends is all of `cs` but blanks around it. -/
structure Trimmed (cs t : List Char) : Prop extends Tight t where
  padded : Padded t cs

theorem Trimmed.trim_eq {cs t : List Char} (h : Trimmed cs t) : trim cs = t := by
  obtain ⟨left, right, rfl, hleft, hright⟩ := h.padded
  unfold trim trimLeft
  rw [List.append_assoc, List.dropWhile_append_of_pos hleft]
  cases t with
  | nil =>
    rw [List.nil_append, List.dropWhile_eq_nil_iff.mpr hright]
    rfl
  | cons c t =>
    have hfirst : ¬ isBlank c = true := by simp [h.head c rfl]
    obtain ⟨before, last, hlast⟩ : ∃ before last, c :: t = before ++ [last] :=
      ⟨_, _, (List.dropLast_append_getLast (List.cons_ne_nil c t)).symm⟩
    have hblank : isBlank last = false := h.last last (by simp [hlast])
    rw [List.cons_append, List.dropWhile_cons_of_neg hfirst, ← List.cons_append,
      trimRight_append_blank hright, hlast, trimRight_append hblank]
    rfl

theorem trim_append_takeWhile (cs : List Char) :
    trim cs ++ ((trimLeft cs).reverse.takeWhile isBlank).reverse = trimLeft cs := by
  unfold trim trimRight
  rw [← List.reverse_append, List.takeWhile_append_dropWhile, List.reverse_reverse]

theorem padded_trim (cs : List Char) : Padded (trim cs) cs := by
  have hleft : cs.takeWhile isBlank ++ trimLeft cs = cs := List.takeWhile_append_dropWhile
  refine ⟨cs.takeWhile isBlank, ((trimLeft cs).reverse.takeWhile isBlank).reverse, ?_, ?_, ?_⟩
  · rw [List.append_assoc, trim_append_takeWhile, hleft]
  · exact fun c hc => List.mem_takeWhile_imp hc
  · exact fun c hc => List.mem_takeWhile_imp (List.mem_reverse.mp hc)

theorem tight_trim (cs : List Char) : Tight (trim cs) where
  head c hc := by
    have hhead : (trimLeft cs).head? = some c := by
      rw [← trim_append_takeWhile, List.head?_append, Option.mem_def.mp hc]
      rfl
    have hnot := List.head?_dropWhile_not isBlank cs
    rw [← trimLeft, hhead] at hnot
    exact hnot
  last c hc := by
    unfold trim trimRight at hc
    rw [List.getLast?_reverse, Option.mem_def] at hc
    have hnot := List.head?_dropWhile_not isBlank (trimLeft cs).reverse
    rw [hc] at hnot
    exact hnot

theorem trim_eq_iff {cs t : List Char} : trim cs = t ↔ Trimmed cs t := by
  constructor
  · rintro rfl
    exact ⟨tight_trim cs, padded_trim cs⟩
  · exact Trimmed.trim_eq

@[simp]
theorem trim_eq_nil_iff {cs : List Char} : trim cs = [] ↔ ∀ c ∈ cs, isBlank c = true := by
  rw [trim_eq_iff]
  constructor
  · rintro ⟨-, left, right, rfl, hleft, hright⟩ c hc
    rw [List.append_nil] at hc
    rcases List.mem_append.mp hc with hc | hc
    · exact hleft c hc
    · exact hright c hc
  · intro h
    exact ⟨⟨by simp, by simp⟩, cs, [], by simp, h, by simp⟩

/-! ## Texts without blanks -/

/-- A text that has no blank in it. -/
def Unbroken (cs : List Char) : Prop :=
  ∀ c ∈ cs, isBlank c = false

@[simp]
theorem unbroken_nil : Unbroken [] :=
  fun _ hc => absurd hc List.not_mem_nil

@[simp]
theorem unbroken_cons_iff {c : Char} {cs : List Char} :
    Unbroken (c :: cs) ↔ isBlank c = false ∧ Unbroken cs :=
  List.forall_mem_cons

@[simp]
theorem unbroken_append_iff {a b : List Char} : Unbroken (a ++ b) ↔ Unbroken a ∧ Unbroken b :=
  List.forall_mem_append

theorem Unbroken.tight {cs : List Char} (h : Unbroken cs) : Tight cs where
  head c hc := h c (List.mem_of_mem_head? hc)
  last c hc := h c (List.mem_of_mem_getLast? hc)

theorem unbroken_of_isDigit {cs : List Char} (h : ∀ c ∈ cs, c.isDigit = true) : Unbroken cs := by
  intro c hc
  obtain ⟨hlow, hhigh⟩ := Char.isDigit_iff_toNat.mp (h c hc)
  have h0 : '0'.toNat = 48 := rfl
  have h9 : '9'.toNat = 57 := rfl
  simp [isBlank, blankRuns]
  omega

end Text

/-! ## Canonical type strings -/

open Text (Unbroken unbroken_cons_iff unbroken_of_isDigit)

theorem Numeral.unbroken_ofNat (n : Nat) : Unbroken (ofNat n) :=
  unbroken_of_isDigit fun _ hc => Nat.isDigit_of_mem_toDigits (by decide) (by decide) hc

theorem Numeral.unbroken_ofInt (n : Int) : Unbroken (ofInt n) := by
  cases n with
  | ofNat n => exact unbroken_ofNat n
  | negSucc n => exact unbroken_cons_iff.mpr ⟨rfl, unbroken_ofNat (n + 1)⟩

theorem unbroken_rangeText {min max : List Char} (hmin : Unbroken min) (hmax : Unbroken max) :
    Unbroken (rangeText min max) := by
  simp +decide [rangeText, hmin, hmax]

theorem FloatLayout.unbroken_positionalText {layout : FloatLayout}
    (hsuffix : layout.wholeSuffix = []) (d : Decimal) : Unbroken (layout.positionalText d) := by
  have hdigits : Unbroken (Numeral.ofNat d.coefficient) := Numeral.unbroken_ofNat d.coefficient
  have hzeros : ∀ k, Unbroken (List.replicate k '0') := by
    intro k c hc
    rw [List.eq_of_mem_replicate hc]
    rfl
  unfold positionalText
  split
  · rename_i k hk
    simp [hsuffix, hdigits, hzeros]
  · dsimp only
    split
    · have htake : ∀ k, Unbroken ((Numeral.ofNat d.coefficient).take k) :=
        fun k c hc => hdigits c (List.mem_of_mem_take hc)
      have hdrop : ∀ k, Unbroken ((Numeral.ofNat d.coefficient).drop k) :=
        fun k c hc => hdigits c (List.mem_of_mem_drop hc)
      simp +decide [htake, hdrop]
    · simp +decide [hzeros, hdigits]

theorem unbroken_displayFloat {x : Float} (hfinite : x.isFinite = true) :
    Unbroken (displayFloat x) := by
  have hbits : Binary64.magnitudeBits x ≠ Binary64.infinityBits :=
    (Binary64.isFinite_iff.mp hfinite).ne
  have hbody : ∀ d, Unbroken (FloatLayout.display.decimalText d) := by
    intro d
    have hpositional : FloatLayout.display.decimalText d = FloatLayout.display.positionalText d :=
      if_pos (Or.inr rfl)
    rw [hpositional]
    exact FloatLayout.unbroken_positionalText rfl d
  unfold displayFloat FloatLayout.text
  rw [Binary64.isNaN_eq_false_of_isFinite hfinite]
  simp only [Bool.false_eq_true, if_false, if_neg hbits]
  split
  · simp +decide [hbody]
  · exact hbody _

theorem FieldType.unbroken_canonicalText (type : FieldType) : Unbroken type.canonicalText := by
  unfold canonicalText
  cases type with
  | integer range =>
    dsimp only
    split
    · simp +decide
    · simp +decide [IntRange.boundsText, unbroken_rangeText, Numeral.unbroken_ofInt]
  | float range =>
    dsimp only
    split
    · simp +decide
    · simp +decide [FloatRange.boundsText, unbroken_rangeText, unbroken_displayFloat, range.finite]
  | text shape =>
    have hamount : Unbroken shape.amount.text := by
      cases shape.amount with
      | fixed count => exact Numeral.unbroken_ofNat count
      | range counts =>
        exact unbroken_rangeText (Numeral.unbroken_ofNat _) (Numeral.unbroken_ofNat _)
    have hunit : Unbroken [shape.unit.code] := by
      cases shape.unit <;> simp +decide [TextUnit.code]
    simp +decide [hamount, hunit]
  | image size =>
    have hnumeral : ∀ {s : String}, Numeral.isNumeral s.toList = true → Unbroken s.toList :=
      fun h => unbroken_of_isDigit (Numeral.isNumeral_iff.mp h).2
    simp +decide [hnumeral, size.width_isNumeral, size.height_isNumeral]

end Specimen
