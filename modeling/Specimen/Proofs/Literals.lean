import Specimen.Decimal.Literal
import Specimen.Proofs.DecimalRounding
import Specimen.Proofs.Digits
import Specimen.Proofs.TypeStrings

/-!
# The language of decimal literals

`Literal cs q` derives the decimal literals without sign: digits with an optional point, and an
optional exponent with an optional sign. The rational number `q` is put together from the digits, so
the derivation does not refer to the reader, which accepts exactly the derivable texts with their
numbers (`exists_read?_iff`).
-/

namespace Specimen

open Numeral (Digits)

namespace Decimal

/-- The digits of a literal with an optional point: `12`, `1.`, `0.25` or `.5`. -/
inductive Mantissa : List Char → ℚ → Prop where
  | whole {a : List Char} {m : Nat} (ha : Digits a m) : Mantissa a m
  | point {a : List Char} {m : Nat} (ha : Digits a m) : Mantissa (a ++ ['.']) m
  | places {a b : List Char} {m n : Nat} (ha : Digits a m) (hb : Digits b n) :
      Mantissa (a ++ '.' :: b) (m + n / 10 ^ b.length)
  | fraction {b : List Char} {n : Nat} (hb : Digits b n) : Mantissa ('.' :: b) (n / 10 ^ b.length)

/-- The exponent of a literal behind its mark: digits with an optional sign. -/
inductive Exponent : List Char → Int → Prop where
  | unsigned {a : List Char} {n : Nat} (ha : Digits a n) : Exponent a n
  | plus {a : List Char} {n : Nat} (ha : Digits a n) : Exponent ('+' :: a) n
  | minus {a : List Char} {n : Nat} (ha : Digits a n) : Exponent ('-' :: a) (-n)

/-- `Literal cs q`: the text is a decimal literal without sign, and denotes `q`. -/
inductive Literal : List Char → ℚ → Prop where
  | plain {a : List Char} {q : ℚ} (ha : Mantissa a q) : Literal a q
  | scientific {a b : List Char} {q : ℚ} {e : Int} {mark : Char} (ha : Mantissa a q)
      (hmark : mark = 'e' ∨ mark = 'E') (hb : Exponent b e) : Literal (a ++ mark :: b) (q * 10 ^ e)

theorem isExponentMark_iff {c : Char} : isExponentMark c = true ↔ c = 'e' ∨ c = 'E' := by
  simp [isExponentMark]

/-! ## The mantissa -/

theorem Mantissa.notMem {cs : List Char} {q : ℚ} (h : Mantissa cs q) {c : Char}
    (hdigit : c.isDigit = false) (hpoint : c ≠ '.') : c ∉ cs := by
  cases h with
  | whole ha => exact ha.notMem hdigit
  | point ha => simp [ha.notMem hdigit, hpoint]
  | places ha hb => simp [ha.notMem hdigit, hb.notMem hdigit, hpoint]
  | fraction hb => simp [hb.notMem hdigit, hpoint]

/-- Digits on both sides of a point denote the number of all digits, shifted by those behind it. -/
theorem value_places {a b : List Char} :
    (Numeral.value (a ++ b) : ℚ) / 10 ^ b.length =
      Numeral.value a + Numeral.value b / 10 ^ b.length := by
  have hpow : (10 : ℚ) ^ b.length ≠ 0 := by positivity
  rw [Numeral.value_append]
  push_cast
  rw [add_div, mul_div_cancel_right₀ _ hpow]

/-- Digits on both sides of a point are a mantissa. -/
theorem mantissa_of_digits {a b : List Char} (ha : a ≠ []) (hb : b ≠ [])
    (hdigits : ∀ c ∈ a ++ b, c.isDigit = true) :
    Mantissa (a ++ '.' :: b) (Numeral.value (a ++ b) / 10 ^ b.length) := by
  have hda : Digits a (Numeral.value a) := Numeral.digits_of_isNumeral
    (Numeral.isNumeral_iff.mpr ⟨ha, fun c hc => hdigits c (List.mem_append_left b hc)⟩)
  have hdb : Digits b (Numeral.value b) := Numeral.digits_of_isNumeral
    (Numeral.isNumeral_iff.mpr ⟨hb, fun c hc => hdigits c (List.mem_append_right a hc)⟩)
  rw [value_places]
  exact .places hda hdb

theorem mantissa_of_readMantissa? {cs : List Char} {coefficient places : Nat}
    (h : readMantissa? cs = some (coefficient, places)) :
    Mantissa cs (coefficient / 10 ^ places) := by
  unfold readMantissa? at h
  cases hcut : Text.cut? '.' cs with
  | none =>
    simp only [hcut, Option.getD_none, List.append_nil, List.length_nil,
      Option.ite_none_right_eq_some, Option.some.injEq, Prod.mk.injEq] at h
    obtain ⟨hnumeral, rfl, rfl⟩ := h
    rw [pow_zero, div_one]
    exact .whole (Numeral.digits_of_isNumeral hnumeral)
  | some parts =>
    obtain ⟨a, b⟩ := parts
    simp only [hcut, Option.getD_some, Option.ite_none_right_eq_some, Option.some.injEq,
      Prod.mk.injEq] at h
    obtain ⟨hnumeral, rfl, rfl⟩ := h
    obtain ⟨rfl, -⟩ := Text.cut?_eq_some_iff.mp hcut
    obtain ⟨-, hall⟩ := Numeral.isNumeral_iff.mp hnumeral
    by_cases ha : a = []
    · subst ha
      exact .fraction (Numeral.digits_of_isNumeral hnumeral)
    · by_cases hb : b = []
      · subst hb
        rw [List.append_nil] at hnumeral ⊢
        rw [List.length_nil, pow_zero, div_one]
        exact .point (Numeral.digits_of_isNumeral hnumeral)
      · exact mantissa_of_digits ha hb hall

theorem Mantissa.readMantissa? {cs : List Char} {q : ℚ} (h : Mantissa cs q) :
    ∃ coefficient places, Decimal.readMantissa? cs = some (coefficient, places) ∧
      (coefficient / 10 ^ places : ℚ) = q := by
  unfold Decimal.readMantissa?
  cases h with
  | @whole _ m ha =>
    have hcut : Text.cut? '.' cs = none := Text.cut?_eq_none_iff.mpr (ha.notMem rfl)
    refine ⟨m, 0, ?_, by simp⟩
    simp [hcut, ha.isNumeral, ha.value_eq]
  | @point a m ha =>
    refine ⟨m, 0, ?_, by simp⟩
    simp [Text.cut?_append (ha.notMem (c := '.') rfl), ha.isNumeral, ha.value_eq]
  | @places a b m n ha hb =>
    refine ⟨Numeral.value (a ++ b), b.length, ?_, ?_⟩
    · have hnumeral := Numeral.isNumeral_append ha.isNumeral hb.isDigit
      simp [Text.cut?_append (ha.notMem (c := '.') rfl), hnumeral]
    · rw [value_places, ha.value_eq, hb.value_eq]
  | @fraction b n hb =>
    refine ⟨n, b.length, ?_, rfl⟩
    simp [Text.cut?, hb.isNumeral, hb.value_eq]

/-! ## The exponent -/

theorem readExponent?_eq_some_iff {cs : List Char} {e : Int} :
    readExponent? cs = some e ↔ Exponent cs e := by
  constructor
  · intro h
    unfold readExponent? at h
    split at h
    · obtain ⟨n, hn, rfl⟩ := Option.map_eq_some_iff.mp h
      exact .plus (Numeral.read?_eq_some_iff.mp hn)
    · simp only [Option.map_eq_some_iff, Option.bind_eq_bind, Option.bind_eq_some_iff,
        Option.pure_def, Option.some.injEq] at h
      obtain ⟨_, ⟨n, hn, rfl⟩, rfl⟩ := h
      exact .minus (Numeral.read?_eq_some_iff.mp hn)
    · obtain ⟨n, hn, rfl⟩ := Option.map_eq_some_iff.mp h
      exact .unsigned (Numeral.read?_eq_some_iff.mp hn)
  · intro h
    cases h with
    | unsigned ha =>
      unfold readExponent?
      split
      · exact absurd (List.mem_cons_self ..) (ha.notMem rfl)
      · exact absurd (List.mem_cons_self ..) (ha.notMem rfl)
      · rw [Numeral.read?_eq_some_iff.mpr ha]
        rfl
    | plus ha => simp [readExponent?, Numeral.read?_eq_some_iff.mpr ha]
    | minus ha => simp [readExponent?, Numeral.read?_eq_some_iff.mpr ha]

/-! ## Literals -/

/-- A mantissa is not split by the search for the mark of an exponent. -/
theorem Mantissa.all_not_mark {a : List Char} {q : ℚ} (h : Mantissa a q) :
    ∀ c ∈ a, (!isExponentMark c) = true := by
  intro c hc
  rw [Bool.not_eq_true', ← Bool.not_eq_true, isExponentMark_iff]
  rintro (rfl | rfl)
  · exact h.notMem rfl (by decide) hc
  · exact h.notMem rfl (by decide) hc

theorem value_sub_places (coefficient places : Nat) (power : Int) :
    value ⟨coefficient, power - places⟩ = coefficient / 10 ^ places * 10 ^ power := by
  rw [value, zpow_sub₀ (by norm_num), zpow_natCast]
  ring

theorem literal_of_read? {cs : List Char} {d : Decimal} (h : read? cs = some d) :
    Literal cs d.value := by
  have hsplit := List.takeWhile_append_dropWhile (p := fun c => !isExponentMark c) (l := cs)
  simp only [read?, Option.bind_eq_bind, Option.bind_eq_some_iff, Prod.exists] at h
  obtain ⟨coefficient, places, hmantissa, hrest⟩ := h
  have hm := mantissa_of_readMantissa? hmantissa
  split at hrest
  · rename_i hnil
    rw [hnil, List.append_nil] at hsplit
    rw [hsplit] at hm
    simp only [Option.some.injEq] at hrest
    subst hrest
    have hvalue := value_sub_places coefficient places 0
    rw [zero_sub, zpow_zero, mul_one] at hvalue
    rw [hvalue]
    exact .plain hm
  · rename_i mark tail hcons
    obtain ⟨power, hpower, hd⟩ := Option.bind_eq_some_iff.mp hrest
    simp only [Option.some.injEq] at hd
    subst hd
    have hmark : isExponentMark mark = true := by
      have := List.head?_dropWhile_not (fun c => !isExponentMark c) cs
      rw [hcons] at this
      simpa using this
    rw [hcons] at hsplit
    rw [value_sub_places, ← hsplit]
    exact .scientific hm (isExponentMark_iff.mp hmark) (readExponent?_eq_some_iff.mp hpower)

theorem Literal.read? {cs : List Char} {q : ℚ} (h : Literal cs q) :
    ∃ d, Decimal.read? cs = some d ∧ d.value = q := by
  cases h with
  | plain ha =>
    obtain ⟨coefficient, places, hread, rfl⟩ := ha.readMantissa?
    have htake := List.takeWhile_eq_self_iff.mpr ha.all_not_mark
    have hdrop := List.dropWhile_eq_nil_iff.mpr ha.all_not_mark
    refine ⟨⟨coefficient, -(places : Int)⟩, ?_, ?_⟩
    · simp [Decimal.read?, htake, hdrop, hread]
    · have hvalue := value_sub_places coefficient places 0
      rw [zero_sub, zpow_zero, mul_one] at hvalue
      exact hvalue
  | @scientific a b _ e mark ha hmark hb =>
    obtain ⟨coefficient, places, hread, rfl⟩ := ha.readMantissa?
    have hstop : (!isExponentMark mark) = false := by simp [isExponentMark_iff.mpr hmark]
    have htake : (a ++ mark :: b).takeWhile (fun c => !isExponentMark c) = a := by
      rw [List.takeWhile_append_of_pos ha.all_not_mark, List.takeWhile_cons, hstop]
      simp
    have hdrop : (a ++ mark :: b).dropWhile (fun c => !isExponentMark c) = mark :: b := by
      rw [List.dropWhile_append_of_pos ha.all_not_mark, List.dropWhile_cons, hstop]
      simp
    refine ⟨⟨coefficient, e - places⟩, ?_, value_sub_places coefficient places e⟩
    simp [Decimal.read?, htake, hdrop, hread, readExponent?_eq_some_iff.mpr hb]

/-- The reader accepts the literals, with their numbers, and nothing else. -/
theorem exists_read?_iff {cs : List Char} {q : ℚ} :
    (∃ d, read? cs = some d ∧ d.value = q) ↔ Literal cs q := by
  constructor
  · rintro ⟨d, hread, rfl⟩
    exact literal_of_read? hread
  · exact Literal.read?

/-- A text denotes one number at most. -/
theorem Literal.unique {cs : List Char} {p q : ℚ} (hp : Literal cs p) (hq : Literal cs q) :
    p = q := by
  obtain ⟨d, hd, rfl⟩ := hp.read?
  obtain ⟨d', hd', rfl⟩ := hq.read?
  rw [hd, Option.some.injEq] at hd'
  rw [hd']

theorem Literal.ne_nil {cs : List Char} {q : ℚ} (h : Literal cs q) : cs ≠ [] := by
  cases h with
  | plain ha =>
    cases ha with
    | whole ha => exact ha.ne_nil
    | point => simp
    | places => simp
    | fraction => simp
  | scientific => simp

/-! ## Hyphens in literals -/

/-- A hyphen in a literal is the sign of its exponent: the character before it is the mark. -/
theorem Literal.mark_before_hyphen {cs before after : List Char} {q : ℚ} (h : Literal cs q)
    (hcs : cs = before ++ '-' :: after) :
    ∃ c, before.getLast? = some c ∧ isExponentMark c = true := by
  have hmem : '-' ∈ cs := by simp [hcs]
  cases h with
  | plain ha => exact absurd hmem (ha.notMem rfl (by decide))
  | @scientific a b _ _ mark ha hmark hb =>
    have hna : '-' ∉ a := ha.notMem rfl (by decide)
    have hnmark : '-' ≠ mark := by
      rintro rfl
      exact absurd hmark (by decide)
    have hnb : ∀ {ds : List Char} {n : Nat}, Digits ds n → '-' ∉ ds := fun hd => hd.notMem rfl
    -- What stands before the hyphen is the mantissa with the mark.
    obtain ⟨b', rfl, hb'⟩ : ∃ b', b = '-' :: b' ∧ '-' ∉ b' := by
      cases hb with
      | unsigned hd => simp [hna, hnmark, hnb hd] at hmem
      | plus hd => simp [hna, hnmark, hnb hd] at hmem
      | minus hd => exact ⟨_, rfl, hnb hd⟩
    have hnot : '-' ∉ a ++ [mark] := by simp [hna, hnmark]
    have hcut : Text.cut? '-' (a ++ mark :: '-' :: b') = some (a ++ [mark], b') := by
      simpa using Text.cut?_append hnot b'
    have hcount : (before ++ '-' :: after).count '-' = 1 := by
      rw [← hcs]
      simp [List.count_eq_zero.mpr hna, List.count_eq_zero.mpr hb', hnmark.symm]
    have hbefore : '-' ∉ before := by
      rw [List.count_append, List.count_cons_self] at hcount
      exact List.count_eq_zero.mp (by omega)
    rw [hcs, Text.cut?_append hbefore after, Option.some.injEq, Prod.mk.injEq] at hcut
    exact ⟨mark, by simp [hcut.1], isExponentMark_iff.mpr hmark⟩

theorem Exponent.ne_nil {cs : List Char} {e : Int} (h : Exponent cs e) : cs ≠ [] := by
  cases h with
  | unsigned ha => exact ha.ne_nil
  | plus ha => simp
  | minus ha => simp

theorem Exponent.not_mark {cs : List Char} {e : Int} (h : Exponent cs e) :
    ∀ c ∈ cs, isExponentMark c = false := by
  intro c hc
  rw [← Bool.not_eq_true, isExponentMark_iff]
  rintro (rfl | rfl) <;>
    cases h with
    | unsigned ha => exact absurd hc (ha.notMem rfl)
    | plus ha => simp [ha.notMem] at hc
    | minus ha => simp [ha.notMem] at hc

/-- A literal does not end with the mark of an exponent. -/
theorem Literal.not_mark_at_end {cs : List Char} {q : ℚ} (h : Literal cs q) {c : Char}
    (hlast : cs.getLast? = some c) : isExponentMark c = false := by
  cases h with
  | plain ha => simpa using ha.all_not_mark c (List.mem_of_getLast? hlast)
  | @scientific a b _ _ mark ha hmark hb =>
    have hb' : b.getLast? = some (b.getLast hb.ne_nil) := List.getLast?_eq_some_getLast hb.ne_nil
    rw [List.append_cons, List.getLast?_append, hb', Option.some_or, Option.some.injEq] at hlast
    exact hb.not_mark c (hlast ▸ List.mem_of_getLast? hb')

end Decimal

end Specimen
