import Specimen.Numeral
import Mathlib.Algebra.Group.Nat.Defs
import Mathlib.Data.List.Induction

/-!
# Digit strings and the numbers they denote

`Digits cs n` derives a run of ASCII digits together with its number, one digit at a time and
without the reader of `Specimen.Numeral`. The reader accepts exactly the derivable texts, with their
numbers (`read?_eq_some_iff`), whatever the number of leading zeros.
-/

namespace Specimen.Numeral

/-- `Digits cs n`: the text is one ASCII digit or more, and denotes `n` in base ten. -/
inductive Digits : List Char → Nat → Prop where
  /-- A single digit. -/
  | digit {d : Nat} (hd : d < 10) : Digits [d.digitChar] d
  /-- One more digit after a run of digits. -/
  | snoc {cs : List Char} {n d : Nat} (h : Digits cs n) (hd : d < 10) :
      Digits (cs ++ [d.digitChar]) (10 * n + d)

/-- A decimal digit is the character of its number. -/
theorem digitChar_of_isDigit {c : Char} (h : c.isDigit = true) :
    c.toNat - '0'.toNat < 10 ∧ Nat.digitChar (c.toNat - '0'.toNat) = c := by
  obtain ⟨hlo, hhi⟩ := Char.isDigit_iff_toNat.mp h
  have h0 : '0'.toNat = 48 := rfl
  have h9 : '9'.toNat = 57 := rfl
  have hlt : c.toNat - '0'.toNat < 10 := by omega
  refine ⟨hlt, Char.toNat_inj.mp ?_⟩
  rw [Nat.toNat_digitChar_of_lt_ten hlt]
  omega

/-! ## Writing digits one after the other -/

theorem value_append (a b : List Char) : value (a ++ b) = value a * 10 ^ b.length + value b := by
  unfold value
  rw [Nat.ofDigitChars_append, Nat.ofDigitChars_eq_ofDigitChars_zero, Nat.mul_comm]

theorem value_digitChar {d : Nat} (hd : d < 10) : value [d.digitChar] = d := by
  unfold value
  rw [Nat.ofDigitChars_cons_digitChar_of_lt_ten hd, Nat.ofDigitChars_nil]
  omega

theorem value_snoc (cs : List Char) {d : Nat} (hd : d < 10) :
    value (cs ++ [d.digitChar]) = 10 * value cs + d := by
  rw [value_append, value_digitChar hd, List.length_singleton, Nat.pow_one,
    Nat.mul_comm]

@[simp]
theorem value_replicate_zero (cs : List Char) (k : Nat) :
    value (cs ++ List.replicate k '0') = value cs * 10 ^ k := by
  rw [value_append, List.length_replicate]
  unfold value
  rw [Nat.ofDigitChars_replicate_zero, Nat.mul_zero, Nat.add_zero]

/-! ## The reader and the digit strings -/

theorem isNumeral_iff {cs : List Char} :
    isNumeral cs = true ↔ cs ≠ [] ∧ ∀ c ∈ cs, c.isDigit = true := by
  simp [isNumeral]

theorem isNumeral_append {a b : List Char} (ha : isNumeral a = true)
    (hb : ∀ c ∈ b, c.isDigit = true) : isNumeral (a ++ b) = true := by
  rw [isNumeral_iff] at ha ⊢
  obtain ⟨hne, hdigits⟩ := ha
  refine ⟨by simp [hne], fun c hc => ?_⟩
  rcases List.mem_append.mp hc with h | h
  · exact hdigits c h
  · exact hb c h

theorem Digits.isNumeral {cs : List Char} {n : Nat} (h : Digits cs n) : isNumeral cs = true := by
  induction h with
  | digit hd => simp [Numeral.isNumeral, hd]
  | snoc _ hd ih => exact isNumeral_append ih (by simp [hd])

theorem Digits.value_eq {cs : List Char} {n : Nat} (h : Digits cs n) : value cs = n := by
  induction h with
  | digit hd => exact value_digitChar hd
  | snoc _ hd ih => rw [value_snoc _ hd, ih]

theorem Digits.unique {cs : List Char} {m n : Nat} (hm : Digits cs m) (hn : Digits cs n) : m = n :=
  hm.value_eq.symm.trans hn.value_eq

/-- Every numeral is a digit string for its value: by induction on the last digit. -/
theorem digits_of_isNumeral {cs : List Char} (h : isNumeral cs = true) : Digits cs (value cs) := by
  induction cs using List.reverseRecOn with
  | nil => simp [isNumeral] at h
  | append_singleton cs c ih =>
    have hall := (isNumeral_iff.mp h).2
    obtain ⟨hlt, hchar⟩ := digitChar_of_isDigit (hall c (by simp))
    rw [← hchar]
    by_cases hnil : cs = []
    · subst hnil
      rw [List.nil_append, value_digitChar hlt]
      exact .digit hlt
    · have hcs : isNumeral cs = true :=
        isNumeral_iff.mpr ⟨hnil, fun x hx => hall x (List.mem_append_left _ hx)⟩
      rw [value_snoc cs hlt]
      exact .snoc (ih hcs) hlt

theorem digits_iff {cs : List Char} {n : Nat} :
    Digits cs n ↔ isNumeral cs = true ∧ value cs = n := by
  constructor
  · intro h
    exact ⟨h.isNumeral, h.value_eq⟩
  · rintro ⟨h, rfl⟩
    exact digits_of_isNumeral h

theorem read?_eq_some_iff {cs : List Char} {n : Nat} : read? cs = some n ↔ Digits cs n := by
  rw [digits_iff]
  unfold read?
  split <;> simp_all

theorem readUpTo?_eq_some_iff {bound n : Nat} {cs : List Char} :
    readUpTo? bound cs = some n ↔ Digits cs n ∧ n ≤ bound := by
  unfold readUpTo?
  rw [Option.filter_eq_some_iff, read?_eq_some_iff, decide_eq_true_iff]

theorem digits_ofNat (n : Nat) : Digits (ofNat n) n :=
  read?_eq_some_iff.mp (read?_ofNat n)

/-! ## What a digit string cannot contain -/

theorem Digits.ne_nil {cs : List Char} {n : Nat} (h : Digits cs n) : cs ≠ [] :=
  (isNumeral_iff.mp h.isNumeral).1

theorem Digits.isDigit {cs : List Char} {n : Nat} (h : Digits cs n) :
    ∀ c ∈ cs, c.isDigit = true :=
  (isNumeral_iff.mp h.isNumeral).2

theorem Digits.notMem {cs : List Char} {n : Nat} (h : Digits cs n) {c : Char}
    (hc : c.isDigit = false) : c ∉ cs := by
  intro hmem
  rw [h.isDigit c hmem] at hc
  exact absurd hc (by decide)

end Specimen.Numeral
