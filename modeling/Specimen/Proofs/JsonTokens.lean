import Specimen.Json.Printer
import Specimen.Json.Token
import Specimen.Proofs.Digits
import Mathlib.Data.List.Forall2
import Mathlib.Tactic.Ring

/-!
# The tokens of written JSON

What is written is read by its tokens alone. `Spells` says that a text has given tokens wherever it
stands: only a number may go on in what follows it, so the text after it must not begin with a
digit, a point or an exponent. Strings spell their characters, whichever of them are escaped
(`spells_string`), and numbers their literals, whichever way the exponent is written
(`spells_number`). Between brackets the items spell the same whether they stand on one line or on
several (`spells_enclosed`).
-/

namespace Specimen

/-! ## Numerals without leading zeros -/

theorem Numeral.ofNat_snoc {n : Nat} (h : 10 ≤ n) :
    ofNat n = ofNat (n / 10) ++ [(n % 10).digitChar] :=
  Nat.toDigits_of_base_le (by decide) h

/-- The shortest numeral begins with a zero only if it is that of zero. -/
theorem Numeral.eq_zero_of_head? {n : Nat} (h : (ofNat n).head? = some '0') : n = 0 := by
  induction n using Nat.strongRecOn with
  | ind n ih =>
    by_cases hten : 10 ≤ n
    · obtain ⟨c, cs, hcs⟩ := List.exists_cons_of_ne_nil (digits_ofNat (n / 10)).ne_nil
      rw [ofNat_snoc hten, hcs, List.cons_append, List.head?_cons] at h
      have := ih (n / 10) (by omega) (by rw [hcs, List.head?_cons, h])
      omega
    · rw [ofNat, Nat.toDigits_of_lt_base (by omega)] at h
      have hdigit : n.digitChar = '0' := by simpa using h
      have hlt : n < 10 := by omega
      clear h ih hten
      revert hdigit
      decide +revert

namespace Json

open Numeral (Digits)

/-! ## Strings -/

/-- `Escaped cs us`: the characters between two quotes, escaped or not, and what they stand for. -/
inductive Escaped : List Char → List Unit → Prop where
  | nil : Escaped [] []
  | plain {c : Char} {cs : List Char} {us : List Unit} (hquote : c ≠ '"') (hslash : c ≠ '\\')
      (hcontrol : ¬ c.toNat < 0x20) (h : Escaped cs us) : Escaped (c :: cs) (.char c :: us)
  | letter {letter c : Char} {cs : List Char} {us : List Unit} (hletter : unescape? letter = some c)
      (h : Escaped cs us) : Escaped ('\\' :: letter :: cs) (.char c :: us)
  | hex {a b c d : Char} {n : Nat} {cs : List Char} {us : List Unit}
      (hhex : hexValues? a b c d = some n) (h : Escaped cs us) :
      Escaped ('\\' :: 'u' :: a :: b :: c :: d :: cs) (.ofNat n :: us)

theorem ne_of_unescape? {letter c : Char} (h : unescape? letter = some c) : letter ≠ 'u' := by
  rintro rfl
  contradiction

/-- A string is read up to its closing quote. -/
theorem scanString_append {cs : List Char} {us : List Unit} (h : Escaped cs us) (rest : List Char) :
    scanString (cs ++ '"' :: rest) = some (us, rest) := by
  induction h with
  | nil => rfl
  | @plain c cs us hquote hslash hcontrol _ ih =>
    rw [List.cons_append, scanString]
    · rw [if_neg, ih]
      · rfl
      · rintro (h | h)
        · exact hcontrol h
        · exact hslash h
    · exact hquote
    · intro a b c d r hc
      exact absurd hc hslash
    · intro a r hc
      exact absurd hc hslash
  | letter hletter _ ih =>
    rw [List.cons_append, List.cons_append, scanString]
    · rw [hletter]
      simp only [ih, Option.map_some]
    · intro a b c d r hu
      exact absurd hu (ne_of_unescape? hletter)
  | hex hhex _ ih =>
    simp only [List.cons_append]
    rw [scanString, hhex]
    simp only [ih, Option.map_some]

theorem unescape?_of_mem {letter c : Char} (h : (letter, c) ∈ letterEscapes) :
    unescape? letter = some c := by
  have hall : ∀ p ∈ letterEscapes, unescape? p.1 = some p.2 := by decide
  exact hall (letter, c) h

theorem hexValues?_of_lt {n : Nat} (h : n < 0x20) :
    hexValues? '0' '0' (hexDigit (n / 16)) (hexDigit (n % 16)) = some n := by
  decide +revert

theorem escaped_escape (c : Char) {cs : List Char} {us : List Unit} (h : Escaped cs us) :
    Escaped (escape c ++ cs) (.char c :: us) := by
  unfold escape
  cases hfind : letterEscapes.find? (·.2 == c) with
  | some p =>
    obtain ⟨letter, c'⟩ := p
    have hc : c' = c := by simpa using List.find?_some hfind
    exact .letter (unescape?_of_mem (hc ▸ List.mem_of_find?_eq_some hfind)) h
  | none =>
    rw [List.find?_eq_none] at hfind
    by_cases hcontrol : c.toNat < 0x20
    · simp only [if_pos hcontrol]
      have hunit : Unit.ofNat c.toNat = .char c := by
        rw [Unit.ofNat, if_neg (by omega), if_neg (by omega), Char.ofNat_toNat]
      rw [← hunit]
      exact .hex (hexValues?_of_lt hcontrol) h
    · simp only [if_neg hcontrol]
      refine .plain ?_ ?_ hcontrol h
      · rintro rfl
        exact hfind ('"', '"') (by simp [letterEscapes]) (by simp)
      · rintro rfl
        exact hfind ('\\', '\\') (by simp [letterEscapes]) (by simp)

/-- The units that a text is read as. -/
def units (s : String) : List Unit :=
  s.toList.map .char

@[simp]
theorem characters?_units (s : String) : Unit.characters? (units s) = some s.toList := by
  unfold units
  induction s.toList with
  | nil => rfl
  | cons c cs ih => simp [Unit.characters?, ih]

theorem escaped_flatMap (s : String) : Escaped (s.toList.flatMap escape) (units s) := by
  unfold units
  induction s.toList with
  | nil => exact .nil
  | cons c cs ih => exact escaped_escape c ih

/-! ## Numbers -/

/-- Whether a number that may end before a character would go on with it. -/
def continuesNumber (c : Char) : Bool :=
  c.isDigit || c == '.' || c == 'e' || c == 'E'

/-- A text that does not go on with a number in front of it. -/
def EndsNumber (rest : List Char) : Prop :=
  ∀ c ∈ rest.head?, continuesNumber c = false

theorem endsNumber_nil : EndsNumber [] := by simp [EndsNumber]

theorem endsNumber_cons {c : Char} (h : continuesNumber c = false) (cs : List Char) :
    EndsNumber (c :: cs) := by
  simpa [EndsNumber] using h

theorem scanDigits_append {ds rest : List Char} (hds : ∀ c ∈ ds, c.isDigit = true)
    (hrest : ∀ c ∈ rest.head?, c.isDigit = false) : scanDigits (ds ++ rest) = (ds, rest) := by
  unfold scanDigits
  rw [List.takeWhile_append_of_pos hds, List.dropWhile_append_of_pos hds]
  cases rest with
  | nil => simp
  | cons c cs =>
    have hc : c.isDigit = false := hrest c rfl
    simp [hc]

namespace Literal

def fractionText (fraction : List Char) : List Char :=
  if fraction = [] then [] else '.' :: fraction

def exponentText : Option Int → List Char
  | none => []
  | some (.ofNat k) => 'e' :: '+' :: Numeral.ofNat k
  | some (.negSucc k) => 'e' :: '-' :: Numeral.ofNat (k + 1)

/-- The literal without its sign. -/
def body (l : Literal) : List Char :=
  l.whole ++ fractionText l.fraction ++ exponentText l.exponent

/-- The literal as it is written. -/
def text (l : Literal) : List Char :=
  if l.isNegative then '-' :: l.body else l.body

/-- A literal of digits whose first is a zero only if it is the only one before the point. -/
structure WellFormed (l : Literal) : Prop where
  whole_ne_nil : l.whole ≠ []
  isDigit_whole : ∀ c ∈ l.whole, c.isDigit = true
  whole_of_head? : l.whole.head? = some '0' → l.whole = ['0']
  isDigit_fraction : ∀ c ∈ l.fraction, c.isDigit = true

end Literal

theorem scanFraction_fractionText {fraction rest : List Char}
    (h : ∀ c ∈ fraction, c.isDigit = true)
    (hrest : ∀ c ∈ rest.head?, c.isDigit = false ∧ c ≠ '.') :
    scanFraction (Literal.fractionText fraction ++ rest) = some (fraction, rest) := by
  unfold Literal.fractionText
  split
  · rename_i hnil
    rw [hnil, List.nil_append]
    unfold scanFraction
    split
    · exact absurd rfl (hrest '.' rfl).2
    · rfl
  · rename_i hne
    have hdigits := scanDigits_append h fun c hc => (hrest c hc).1
    simp [scanFraction, hdigits, hne]

/-- `PowerText cs n`: an exponent behind its mark, with or without a sign. -/
inductive PowerText : List Char → Int → Prop where
  | bare {ds : List Char} {n : Nat} (h : Digits ds n) : PowerText ds n
  | plus {ds : List Char} {n : Nat} (h : Digits ds n) : PowerText ('+' :: ds) n
  | minus {ds : List Char} {n : Nat} (h : Digits ds n) : PowerText ('-' :: ds) (-n)

/-- `ExponentText cs exponent`: an exponent as it may be written, nothing if there is none. -/
inductive ExponentText : List Char → Option Int → Prop where
  | none : ExponentText [] none
  | lower {cs : List Char} {n : Int} (h : PowerText cs n) : ExponentText ('e' :: cs) (some n)
  | upper {cs : List Char} {n : Int} (h : PowerText cs n) : ExponentText ('E' :: cs) (some n)

theorem Literal.exponentText_spec (exponent : Option Int) :
    ExponentText (exponentText exponent) exponent := by
  cases exponent with
  | none => exact .none
  | some n =>
    cases n with
    | ofNat k => exact .lower (.plus (Numeral.digits_ofNat k))
    | negSucc k => exact .lower (.minus (Numeral.digits_ofNat (k + 1)))

theorem scanPower_append {ds : List Char} {n : Nat} (h : Digits ds n) (sign : Int)
    {rest : List Char} (hrest : ∀ c ∈ rest.head?, c.isDigit = false) :
    scanPower sign (ds ++ rest) = some (sign * n, rest) := by
  have hvalue : Nat.ofDigitChars 10 ds 0 = n := h.value_eq
  simp [scanPower, scanDigits_append h.isDigit hrest, h.ne_nil, hvalue]

theorem scanExponent_append {cs : List Char} {n : Int} (h : PowerText cs n) {rest : List Char}
    (hrest : ∀ c ∈ rest.head?, c.isDigit = false) :
    scanExponent (cs ++ rest) = some (n, rest) := by
  cases h with
  | bare h =>
    have hscan := scanPower_append h 1 hrest
    rw [Int.one_mul] at hscan
    obtain ⟨c, cs, rfl⟩ := List.exists_cons_of_ne_nil h.ne_nil
    have hc : c.isDigit = true := h.isDigit c List.mem_cons_self
    rw [List.cons_append] at hscan ⊢
    -- A digit is none of the two signs.
    unfold scanExponent
    split
    · rename_i heq
      rw [(List.cons.inj heq).1] at hc
      contradiction
    · rename_i heq
      rw [(List.cons.inj heq).1] at hc
      contradiction
    · exact hscan
  | plus h =>
    have hscan := scanPower_append h 1 hrest
    rwa [Int.one_mul] at hscan
  | minus h =>
    have hscan := scanPower_append h (-1) hrest
    rwa [Int.neg_one_mul] at hscan

theorem EndsNumber.isDigit {rest : List Char} (h : EndsNumber rest) :
    ∀ c ∈ rest.head?, c.isDigit = false := by
  intro c hc
  have hends := h c hc
  simp only [continuesNumber, Bool.or_eq_false_iff] at hends
  exact hends.1.1.1

theorem scanOptionalExponent_append {cs : List Char} {exponent : Option Int}
    (h : ExponentText cs exponent) {rest : List Char} (hrest : EndsNumber rest) :
    scanOptionalExponent (cs ++ rest) = some (exponent, rest) := by
  cases h with
  | none =>
    cases rest with
    | nil => rfl
    | cons c cs =>
      have hc : continuesNumber c = false := hrest c rfl
      simp only [continuesNumber, Bool.or_eq_false_iff, beq_eq_false_iff_ne] at hc
      rw [List.nil_append]
      unfold scanOptionalExponent
      split
      · rename_i heq
        exact absurd (List.cons.inj heq).1 hc.1.2
      · rename_i heq
        exact absurd (List.cons.inj heq).1 hc.2
      · rfl
  | lower h => rw [List.cons_append, scanOptionalExponent, scanExponent_append h hrest.isDigit]; rfl
  | upper h => rw [List.cons_append, scanOptionalExponent, scanExponent_append h hrest.isDigit]; rfl

theorem head?_exponent_append {cs : List Char} {exponent : Option Int}
    (h : ExponentText cs exponent) {rest : List Char} (hrest : EndsNumber rest) :
    ∀ c ∈ (cs ++ rest).head?, c.isDigit = false ∧ c ≠ '.' := by
  intro c hc
  cases h with
  | none =>
    have hends := hrest c hc
    simp only [continuesNumber, Bool.or_eq_false_iff, beq_eq_false_iff_ne] at hends
    exact ⟨hends.1.1.1, hends.1.1.2⟩
  | lower _ =>
    obtain rfl : 'e' = c := Option.some.inj hc
    decide
  | upper _ =>
    obtain rfl : 'E' = c := Option.some.inj hc
    decide

theorem head?_fractionText_append (fraction : List Char) {rest : List Char}
    (hrest : ∀ c ∈ rest.head?, c.isDigit = false) :
    ∀ c ∈ (Literal.fractionText fraction ++ rest).head?, c.isDigit = false := by
  intro c hc
  unfold Literal.fractionText at hc
  split at hc
  · exact hrest c hc
  · obtain rfl : '.' = c := by simpa using hc
    rfl

/-- The digits and the exponent of a literal are read whatever way the exponent is written. -/
theorem scanNumber_append {l : Literal} (h : l.WellFormed) {power : List Char}
    (hpower : ExponentText power l.exponent) {rest : List Char} (hrest : EndsNumber rest) :
    scanNumber l.isNegative (l.whole ++ Literal.fractionText l.fraction ++ power ++ rest) =
      some (l, rest) := by
  have hexponent := head?_exponent_append hpower hrest
  have hwhole := scanDigits_append h.isDigit_whole
    (head?_fractionText_append l.fraction fun c hc => (hexponent c hc).1)
  have hvalid : ¬ (l.whole = [] ∨ (l.whole.head? = some '0' ∧ l.whole ≠ ['0'])) := by
    rintro (hnil | ⟨hzero, hne⟩)
    · exact h.whole_ne_nil hnil
    · exact hne (h.whole_of_head? hzero)
  unfold scanNumber
  rw [List.append_assoc, List.append_assoc, hwhole]
  simp only [if_neg hvalid, scanFraction_fractionText h.isDigit_fraction hexponent,
    scanOptionalExponent_append hpower hrest, Option.bind_eq_bind, Option.bind_some]

namespace Literal

/-- Digits are all taken into a significand that stays below 64 bits. -/
theorem takeDigits_eq {ds : List Char} (hds : ∀ c ∈ ds, c.isDigit = true) (significand : Nat)
    (h : significand * 10 ^ ds.length + Numeral.value ds < UInt64.size) :
    takeDigits significand ds = (significand * 10 ^ ds.length + Numeral.value ds, ds.length) := by
  induction ds generalizing significand with
  | nil => simp [takeDigits, Numeral.value]
  | cons c cs ih =>
    obtain ⟨hlt, hchar⟩ := Numeral.digitChar_of_isDigit (hds c List.mem_cons_self)
    have hvalue : Numeral.value (c :: cs) =
        (c.toNat - '0'.toNat) * 10 ^ cs.length + Numeral.value cs := by
      have hfirst := Numeral.value_digitChar hlt
      rw [hchar] at hfirst
      rw [← List.singleton_append, Numeral.value_append, hfirst]
    have hsum : significand * 10 ^ (c :: cs).length + Numeral.value (c :: cs) =
        (significand * 10 + (c.toNat - '0'.toNat)) * 10 ^ cs.length + Numeral.value cs := by
      rw [hvalue, List.length_cons, Nat.pow_succ]
      ring
    rw [hsum] at h ⊢
    have hnext : significand * 10 + (c.toNat - '0'.toNat) < UInt64.size := by
      have := Nat.le_mul_of_pos_right (significand * 10 + (c.toNat - '0'.toNat))
        (Nat.pow_pos (n := cs.length) (show 0 < 10 by decide))
      omega
    rw [takeDigits]
    simp only [if_neg (Nat.not_le.mpr hnext),
      ih (fun d hd => hds d (List.mem_cons_of_mem c hd)) _ h, List.length_cons]

/-- The literal that an integer is written as. -/
def ofInt (n : Int) : Literal :=
  ⟨decide (n < 0), Numeral.ofNat n.natAbs, [], none⟩

@[simp]
theorem text_ofInt (n : Int) : (ofInt n).text = Numeral.ofInt n := by
  cases n with
  | ofNat k => simp [ofInt, text, body, fractionText, exponentText, Numeral.ofInt]
  | negSucc k =>
    have hsign : Int.negSucc k < 0 := by omega
    simp [ofInt, text, body, fractionText, exponentText, Numeral.ofInt, hsign]

theorem wellFormed_ofInt (n : Int) : (ofInt n).WellFormed where
  whole_ne_nil := (Numeral.digits_ofNat _).ne_nil
  isDigit_whole := (Numeral.digits_ofNat _).isDigit
  whole_of_head? h := by
    have hzero : n.natAbs = 0 := Numeral.eq_zero_of_head? h
    rw [ofInt, hzero]
    rfl
  isDigit_fraction := by simp [ofInt]

theorem takeDigits_ofNat {n : Nat} (h : n < UInt64.size) :
    takeDigits 0 (Numeral.ofNat n) = (n, (Numeral.ofNat n).length) := by
  have htaken := takeDigits_eq (Numeral.digits_ofNat n).isDigit 0 (by simpa using h)
  simpa using htaken

@[simp]
theorem value?_natural (n : UInt64) : (ofInt n.toNat).value? = some (.natural n) := by
  have hlt : n.toNat < UInt64.size := n.toNat_lt
  simp [value?, ofInt, takeDigits_ofNat hlt]

theorem value?_negative {n : Int64} (h : n.toInt < 0) :
    (ofInt n.toInt).value? = some (.negative n) := by
  have hmin := n.le_toInt
  have hlt : n.toInt.natAbs < UInt64.size := by
    have : UInt64.size = 2 ^ 64 := rfl
    omega
  have hin : ¬ (n.toInt.natAbs = 0 ∨ Int64.maxValue.toInt + 1 < n.toInt.natAbs) := by
    have : Int64.maxValue.toInt = 2 ^ 63 - 1 := rfl
    omega
  have hneg : -(n.toInt.natAbs : Int) = n.toInt := by omega
  simp only [value?, ofInt, takeDigits_ofNat hlt, decide_eq_true h, beq_self_eq_true, and_self,
    if_true, if_neg hin, hneg, Int64.ofInt_toInt]
  simp

end Literal

/-! ## Tokens -/

@[simp]
theorem tokens_nil : tokens [] = [] := by
  rw [tokens]

@[simp]
theorem tokens_space {c : Char} (h : isSpace c = true) (cs : List Char) :
    tokens (c :: cs) = tokens cs := by
  rw [tokens, if_pos h]

theorem tokens_cons {c : Char} (h : isSpace c = false) (cs : List Char) :
    tokens (c :: cs) = (Token.read c cs).1 :: tokens (Token.read c cs).2 := by
  rw [tokens]
  simp [h]

theorem space_of_isSpace {c : Char} (h : isSpace c = true) :
    c = ' ' ∨ c = '\n' ∨ c = '\t' ∨ c = '\r' := by
  simpa [isSpace, or_assoc] using h

theorem endsNumber_spaces {space rest : List Char} (h : ∀ c ∈ space, isSpace c = true)
    (hrest : EndsNumber rest) : EndsNumber (space ++ rest) := by
  cases space with
  | nil => exact hrest
  | cons c space =>
    refine endsNumber_cons ?_ _
    obtain rfl | rfl | rfl | rfl := space_of_isSpace (h c List.mem_cons_self) <;> rfl

theorem tokens_spaces {space : List Char} (h : ∀ c ∈ space, isSpace c = true) (cs : List Char) :
    tokens (space ++ cs) = tokens cs := by
  induction space with
  | nil => rfl
  | cons c space ih =>
    obtain ⟨hc, hspace⟩ := List.forall_mem_cons.mp h
    simp [hc, ih hspace]

/-- The characters that are tokens by themselves. -/
def marks : List (Char × Token) :=
  [('\x7b', .openBrace), ('\x7d', .closeBrace), ('[', .openBracket), (']', .closeBracket),
    (',', .comma), (':', .colon)]

theorem openBrace_mem_marks : ('\x7b', .openBrace) ∈ marks := by simp [marks]

theorem closeBrace_mem_marks : ('\x7d', .closeBrace) ∈ marks := by simp [marks]

theorem openBracket_mem_marks : ('[', .openBracket) ∈ marks := by simp [marks]

theorem closeBracket_mem_marks : (']', .closeBracket) ∈ marks := by simp [marks]

theorem comma_mem_marks : (',', .comma) ∈ marks := by simp [marks]

theorem colon_mem_marks : (':', .colon) ∈ marks := by simp [marks]

theorem tokens_mark {c : Char} {t : Token} (h : (c, t) ∈ marks) (cs : List Char) :
    tokens (c :: cs) = t :: tokens cs := by
  simp only [marks, List.mem_cons, Prod.mk.injEq, List.not_mem_nil, or_false] at h
  rcases h with ⟨rfl, rfl⟩ | ⟨rfl, rfl⟩ | ⟨rfl, rfl⟩ | ⟨rfl, rfl⟩ | ⟨rfl, rfl⟩ | ⟨rfl, rfl⟩
  all_goals exact tokens_cons (by decide) cs

theorem endsNumber_mark {c : Char} {t : Token} (h : (c, t) ∈ marks) (cs : List Char) :
    EndsNumber (c :: cs) := by
  have hall : ∀ p ∈ marks, continuesNumber p.1 = false := by decide
  exact endsNumber_cons (hall (c, t) h) cs

theorem read_digit {c : Char} (h : c.isDigit = true) (cs : List Char) :
    Token.read c cs = Token.ofScan .number (scanNumber false (c :: cs)) := by
  unfold Token.read
  split
  case h_12 => rw [if_pos h]
  all_goals exact absurd h (by decide)

/-- `Spells cs ts`: the tokens of `cs` are `ts`, in front of any text that does not go on with a
number. -/
def Spells (cs : List Char) (ts : List Token) : Prop :=
  ∀ rest, EndsNumber rest → tokens (cs ++ rest) = ts ++ tokens rest

theorem Spells.tokens_eq {cs : List Char} {ts : List Token} (h : Spells cs ts) :
    tokens cs = ts := by
  simpa using h [] endsNumber_nil

/-- `StringText cs us`: a string as it may be written, and what it stands for. -/
def StringText (cs : List Char) (us : List Unit) : Prop :=
  ∃ body, Escaped body us ∧ cs = '"' :: (body ++ ['"'])

theorem spells_string {cs : List Char} {us : List Unit} (h : StringText cs us) :
    Spells cs [.string us] := by
  intro rest _
  obtain ⟨body, hbody, rfl⟩ := h
  rw [List.cons_append, List.append_assoc, tokens_cons (by decide), List.singleton_append,
    Token.read, scanString_append hbody]
  rfl

theorem spells_quoted (s : String) : Spells (quoted s) [.string (units s)] :=
  spells_string ⟨_, escaped_flatMap s, rfl⟩

/-- `NumberText cs l`: a literal as it may be written. -/
def NumberText (cs : List Char) (l : Literal) : Prop :=
  l.WellFormed ∧ ∃ power, ExponentText power l.exponent ∧
    cs = (if l.isNegative then ['-'] else []) ++
      (l.whole ++ Literal.fractionText l.fraction ++ power)

theorem spells_number {cs : List Char} {l : Literal} (h : NumberText cs l) :
    Spells cs [.number l] := by
  intro rest hrest
  obtain ⟨hl, power, hpower, rfl⟩ := h
  have hscan := scanNumber_append hl hpower hrest
  split
  · rename_i hsign
    rw [hsign] at hscan
    rw [List.append_assoc, List.singleton_append, tokens_cons (by decide), Token.read, hscan]
    rfl
  · rename_i hsign
    rw [eq_false_of_ne_true hsign] at hscan
    -- The body begins with a digit, which is what the token is told by.
    obtain ⟨c, whole, hwhole⟩ := List.exists_cons_of_ne_nil hl.whole_ne_nil
    have hdigit : c.isDigit = true :=
      hl.isDigit_whole c (by rw [hwhole]; exact List.mem_cons_self)
    have hspace : isSpace c = false := by
      refine Bool.not_eq_true _ |>.mp fun hspace => ?_
      obtain rfl | rfl | rfl | rfl := space_of_isSpace hspace <;> exact absurd hdigit (by decide)
    obtain ⟨tail, htail⟩ : ∃ tail,
        l.whole ++ Literal.fractionText l.fraction ++ power ++ rest = c :: tail := by
      rw [hwhole]
      exact ⟨_, rfl⟩
    rw [List.nil_append]
    rw [htail] at hscan ⊢
    rw [tokens_cons hspace, read_digit hdigit, hscan]
    rfl

theorem spells_literal {l : Literal} (h : l.WellFormed) : Spells l.text [.number l] := by
  refine spells_number ⟨h, _, Literal.exponentText_spec l.exponent, ?_⟩
  unfold Literal.text
  split <;> rfl

/-! ## Items between brackets -/

theorem spells_items {α : Type} {l : List α} {text : α → List Char} {ts : α → List Token}
    (h : ∀ a ∈ l, Spells (text a) (ts a)) : List.Forall₂ Spells (l.map text) (l.map ts) := by
  rw [List.forall₂_map_left_iff, List.forall₂_map_right_iff, List.forall₂_same]
  exact h

/-- Items with a comma in front of each. -/
def withCommas (items : List (List Token)) : List Token :=
  items.flatMap (.comma :: ·)

@[simp]
theorem withCommas_cons (item : List Token) (items : List (List Token)) :
    withCommas (item :: items) = .comma :: (item ++ withCommas items) := rfl

theorem length_le_withCommas (items : List (List Token)) :
    items.length ≤ (withCommas items).length := by
  induction items with
  | nil => exact le_refl _
  | cons item items ih =>
    simp
    omega

theorem tokens_joinWith {space : List Char} (hspace : ∀ c ∈ space, isSpace c = true)
    {items : List (List Char)} {spelled : List (List Token)} (h : List.Forall₂ Spells items spelled)
    {rest : List Char} (hrest : EndsNumber rest) :
    tokens (Text.joinWith (',' :: space) items ++ rest) =
      (withCommas spelled).tail ++ tokens rest := by
  induction h with
  | nil => rfl
  | @cons item ts items spelled hitem hitems ih =>
    cases hitems with
    | nil => simpa [Text.joinWith, withCommas] using hitem rest hrest
    | cons _ _ =>
      simp [Text.joinWith, hitem _ (endsNumber_mark comma_mem_marks _), tokens_mark comma_mem_marks,
        tokens_spaces hspace, ih]

/-- Items between two brackets. -/
def enclosed (opening closing : Token) (items : List (List Token)) : List Token :=
  opening :: (withCommas items).tail ++ [closing]

@[simp]
theorem enclosed_append (opening closing : Token) (items : List (List Token)) (rest : List Token) :
    enclosed opening closing items ++ rest =
      opening :: ((withCommas items).tail ++ closing :: rest) := by
  simp [enclosed]

section Brackets

variable {opening closing : Char} {first last : Token} {items : List (List Char)}
  {spelled : List (List Token)}

/-- After the closing bracket nothing can go on with a number. -/
theorem tokens_enclosed (hfirst : (opening, first) ∈ marks) (hlast : (closing, last) ∈ marks)
    (before between after : List Char) (hbefore : ∀ c ∈ before, isSpace c = true)
    (hbetween : ∀ c ∈ between, isSpace c = true) (hafter : ∀ c ∈ after, isSpace c = true)
    (h : List.Forall₂ Spells items spelled) (rest : List Char) :
    tokens (opening :: before ++ Text.joinWith (',' :: between) items ++ after ++ [closing] ++
        rest) = enclosed first last spelled ++ tokens rest := by
  have hend : EndsNumber (after ++ closing :: rest) :=
    endsNumber_spaces hafter (endsNumber_mark hlast rest)
  simp [tokens_mark hfirst, tokens_spaces hbefore, tokens_joinWith hbetween h hend,
    tokens_spaces hafter, tokens_mark hlast]

theorem spells_enclosed (hfirst : (opening, first) ∈ marks) (hlast : (closing, last) ∈ marks)
    (before between after : List Char) (hbefore : ∀ c ∈ before, isSpace c = true)
    (hbetween : ∀ c ∈ between, isSpace c = true) (hafter : ∀ c ∈ after, isSpace c = true)
    (h : List.Forall₂ Spells items spelled) :
    Spells (opening :: before ++ Text.joinWith (',' :: between) items ++ after ++ [closing])
      (enclosed first last spelled) :=
  fun rest _ => tokens_enclosed hfirst hlast before between after hbefore hbetween hafter h rest

theorem spells_blockText (hfirst : (opening, first) ∈ marks) (hlast : (closing, last) ∈ marks)
    (level : Nat) (h : List.Forall₂ Spells items spelled) :
    Spells (blockText opening closing level items) (enclosed first last spelled) := by
  have hstart : ∀ level, ∀ c ∈ lineStart level, isSpace c = true := by
    intro level c hc
    simp only [lineStart, List.mem_cons, List.mem_replicate] at hc
    rcases hc with rfl | ⟨-, rfl⟩ <;> rfl
  cases h with
  | nil =>
    exact spells_enclosed hfirst hlast [] [] [] (by simp) (by simp) (by simp) .nil
  | cons hitem hitems =>
    exact spells_enclosed hfirst hlast _ _ _ (hstart _) (hstart _) (hstart _) (.cons hitem hitems)

end Brackets

/-! ## Mappings -/

/-- The tokens of members whose values have the given tokens, each with a comma in front. -/
def memberTokens (members : List (String × List Token)) : List Token :=
  withCommas (members.map fun (name, ts) => .string (units name) :: .colon :: ts)

/-- The tokens of a mapping whose values have the given tokens. -/
def mappingTokens (members : List (String × List Token)) : List Token :=
  .openBrace :: (memberTokens members).tail ++ [.closeBrace]

@[simp]
theorem mappingTokens_append (members : List (String × List Token)) (rest : List Token) :
    mappingTokens members ++ rest =
      .openBrace :: ((memberTokens members).tail ++ .closeBrace :: rest) := by
  simp [mappingTokens]

theorem spells_pair {key value : List Char} {us : List Unit} {ts : List Token}
    (hkey : Spells key [.string us]) (hvalue : Spells value ts) :
    Spells (key ++ ':' :: value) (.string us :: .colon :: ts) := by
  intro rest hrest
  simp [hkey _ (endsNumber_mark colon_mem_marks _), tokens_mark colon_mem_marks, hvalue rest hrest]

theorem spells_member (space : List Char) (hspace : ∀ c ∈ space, isSpace c = true) (name : String)
    {text : List Char} {ts : List Token} (h : Spells text ts) :
    Spells (quoted name ++ ':' :: (space ++ text)) (.string (units name) :: .colon :: ts) := by
  refine spells_pair (spells_quoted name) fun rest hrest => ?_
  simp [tokens_spaces hspace, h rest hrest]

theorem spells_mappingText {members : List (String × List Char)}
    {spelled : List (String × List Token)}
    (h : List.Forall₂ (fun m s => m.1 = s.1 ∧ Spells m.2 s.2) members spelled) :
    Spells (mappingText members) (mappingTokens spelled) := by
  have hitems : List.Forall₂ Spells (members.map fun m => quoted m.1 ++ ':' :: m.2)
      (spelled.map fun s => .string (units s.1) :: .colon :: s.2) := by
    rw [List.forall₂_map_left_iff, List.forall₂_map_right_iff]
    refine h.imp ?_
    rintro ⟨name, text⟩ ⟨_, ts⟩ ⟨rfl, htext⟩
    exact spells_member [] (by simp) name htext
  simpa [mappingText, mappingTokens, memberTokens, enclosed] using
    spells_enclosed openBrace_mem_marks closeBrace_mem_marks [] [] [] (by simp) (by simp) (by simp)
      hitems

/-- A mapping with a member for each item. -/
theorem spells_mappingText_map {α : Type} {l : List α} (name : α → String)
    {text : α → List Char} {ts : α → List Token} (h : ∀ a ∈ l, Spells (text a) (ts a)) :
    Spells (mappingText (l.map fun a => (name a, text a)))
      (mappingTokens (l.map fun a => (name a, ts a))) := by
  refine spells_mappingText ?_
  rw [List.forall₂_map_left_iff, List.forall₂_map_right_iff, List.forall₂_same]
  exact fun a ha => ⟨rfl, h a ha⟩

end Json

end Specimen
