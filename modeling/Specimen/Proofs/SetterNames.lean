import Mathlib
import Specimen.Mapping.SetterName

/-!
# Setter names and the words of a field

The upper-case form of a character has an ASCII character in it only if this is a capital letter or
the character itself (`ascii_of_mem_upper`), so no underscore comes into the name of a setter. A
setter is named by the words between the underscores of its field one after the other, whether the
field has underscores at its ends, or several in a row, or not (`setterBody_append`). Where the
words are those of snake case, every capital letter of the setter begins a word, and with an
underscore and the small letter in its place the field is read off the setter
(`flatMap_uncapital_setterBody`).
-/

namespace Specimen

/-! ## ASCII characters of upper case -/

namespace Text

/-- Where a run of characters ends up: beyond ASCII on one side of the surrogates, or among the
capital letters. -/
def CaseRun.AvoidsAscii (run : CaseRun) : Prop :=
  (0x80 ≤ run.target run.first ∧ run.target run.last < 0xD800) ∨
    (0xDFFF < run.target run.first ∧ run.target run.last < 0x110000) ∨
    (65 ≤ run.target run.first ∧ run.target run.last ≤ 90)

instance : DecidablePred CaseRun.AvoidsAscii :=
  fun _ => inferInstanceAs (Decidable (_ ∨ _ ∨ _))

theorem avoidsAscii_of_mem_upperRuns : ∀ run ∈ upperRuns, run.AvoidsAscii := by
  decide +kernel

theorem ascii_of_mem_upperExpansions : ∀ expansion ∈ upperExpansions, ∀ code ∈ expansion.2,
    (Char.ofNat code).toNat < 0x80 → (Char.ofNat code).isUpper = true := by
  decide +kernel

theorem isUpper_iff {c : Char} : c.isUpper = true ↔ 65 ≤ c.toNat ∧ c.toNat ≤ 90 := by
  rw [Char.isUpper, decide_eq_true_iff]
  exact and_congr UInt32.le_iff_toNat_le UInt32.le_iff_toNat_le

/-- A run keeps the order of its characters, so it moves them between its two ends. -/
theorem CaseRun.target_between {run : CaseRun} {code : Nat} (h : run.covers code = true) :
    run.target run.first ≤ run.target code ∧ run.target code ≤ run.target run.last := by
  simp only [covers, Bool.and_eq_true, decide_eq_true_eq] at h
  unfold target
  simp only [Int.ofNat_eq_natCast]
  omega

theorem CaseRun.ascii_of_target {run : CaseRun} (hrun : run.AvoidsAscii) {code : Nat}
    (h : run.covers code = true) (hascii : (Char.ofNat (run.target code)).toNat < 0x80) :
    (Char.ofNat (run.target code)).isUpper = true := by
  obtain ⟨hlow, hhigh⟩ := target_between h
  have hvalid : (run.target code).isValidChar := by
    rcases hrun with hrun | hrun | hrun
    · exact Or.inl (by omega)
    · exact Or.inr (by omega)
    · exact Or.inl (by omega)
  rw [isUpper_iff]
  rw [Char.toNat_ofNat, if_pos hvalid] at hascii ⊢
  rcases hrun with hrun | hrun | hrun <;> omega

/-- An ASCII character of an upper-case form is a capital letter, unless it is the character that
has the form. -/
theorem ascii_of_mem_upper {c d : Char} (h : d ∈ upper c) (hascii : d.toNat < 0x80) :
    d = c ∨ d.isUpper = true := by
  unfold upper at h
  split at h
  · rw [List.mem_singleton] at h
    subst h
    by_cases hlower : c.isLower = true
    · right
      rw [Char.isUpper_toUpper_eq_isAlpha, Char.isAlpha, hlower, Bool.or_true]
    · left
      exact Char.toUpper_eq_of_not_isLower hlower
  · unfold upperWide at h
    split at h
    · rename_i codes hlookup
      obtain ⟨code, hcode, rfl⟩ := List.mem_map.mp h
      obtain ⟨before, after, hsplit, -⟩ := List.lookup_eq_some_iff.mp hlookup
      have hmem : (c.toNat, codes) ∈ upperExpansions := by
        rw [hsplit]
        exact List.mem_append_right _ List.mem_cons_self
      exact Or.inr (ascii_of_mem_upperExpansions _ hmem code hcode hascii)
    · split at h
      · rename_i run hfind
        rw [List.mem_singleton] at h
        subst h
        have hcovers : run.covers c.toNat = true := by simpa using List.find?_some hfind
        have hrun := avoidsAscii_of_mem_upperRuns run (List.mem_of_find?_eq_some hfind)
        exact Or.inr (CaseRun.ascii_of_target hrun hcovers hascii)
      · exact Or.inl (List.mem_singleton.mp h)

theorem notMem_capitalize_of_notMem {mark : Char} (hascii : mark.toNat < 0x80)
    (hcase : mark.isUpper = false) {cs : List Char} (h : mark ∉ cs) : mark ∉ capitalize cs := by
  cases cs with
  | nil => exact h
  | cons c cs =>
    rw [List.mem_cons, not_or] at h
    rw [capitalize, List.mem_append, not_or]
    refine ⟨fun hmem => ?_, h.2⟩
    rcases ascii_of_mem_upper hmem hascii with heq | hupper
    · exact h.1 heq
    · rw [hcase] at hupper
      contradiction

theorem splitAt_eq_splitOn (sep : Char) (cs : List Char) : splitAt sep cs = cs.splitOn sep := by
  induction cs with
  | nil => rfl
  | cons c cs ih =>
    rw [splitAt, List.splitOn_cons_eq_if_modifyHead, ih]
    by_cases h : c = sep
    · simp [h]
    · obtain ⟨piece, pieces, hpieces⟩ := List.exists_cons_of_ne_nil (List.splitOn_ne_nil sep cs)
      simp [h, hpieces]

/-- The pieces of a text hold characters of the text, but no separator. -/
theorem mem_piece_of_splitOn {sep : Char} {cs piece : List Char} (h : piece ∈ cs.splitOn sep) :
    ∀ c ∈ piece, c ∈ cs ∧ c ≠ sep := by
  induction cs generalizing piece with
  | nil =>
    rw [List.splitOn_nil, List.mem_singleton] at h
    intro c hc
    rw [h] at hc
    exact absurd hc List.not_mem_nil
  | cons first cs ih =>
    have hlater : ∀ piece ∈ cs.splitOn sep, ∀ c ∈ piece, c ∈ first :: cs ∧ c ≠ sep := by
      intro piece hpiece c hc
      obtain ⟨hmem, hne⟩ := ih hpiece c hc
      exact ⟨List.mem_cons_of_mem first hmem, hne⟩
    rw [List.splitOn_cons_eq_if_modifyHead] at h
    split at h
    · rcases List.mem_cons.mp h with rfl | hrest
      · exact fun c hc => absurd hc List.not_mem_nil
      · exact hlater piece hrest
    · rename_i hfirst
      obtain ⟨head, pieces, hpieces⟩ := List.exists_cons_of_ne_nil (List.splitOn_ne_nil sep cs)
      rw [hpieces] at h hlater
      rcases List.mem_cons.mp h with rfl | hrest
      · intro c hc
        rcases List.mem_cons.mp hc with rfl | hc
        · exact ⟨List.mem_cons_self, fun heq => hfirst (beq_iff_eq.mpr heq)⟩
        · exact hlater head List.mem_cons_self c hc
      · exact hlater piece (List.mem_cons_of_mem head hrest)

end Text

/-! ## The words of a setter -/

/-- The name of the setter for a field without the word that all setters begin with. -/
def setterBody (field : List Char) : List Char :=
  (field.splitOn '_').flatMap Text.capitalize

@[simp]
theorem toList_setterName (field : String) :
    (setterName field).toList = "set".toList ++ setterBody field.toList := by
  rw [setterName, String.toList_ofList, setterText, Text.splitAt_eq_splitOn]
  rfl

theorem setterName_eq (field : String) :
    setterName field = "set" ++ String.ofList (setterBody field.toList) := by
  apply String.toList_inj.mp
  simp

theorem setterName_congr {a b : String} (h : setterBody a.toList = setterBody b.toList) :
    setterName a = setterName b := by
  rw [setterName_eq, setterName_eq, h]

theorem notMem_setterBody {mark : Char} (hascii : mark.toNat < 0x80)
    (hcase : mark.isUpper = false) {field : List Char}
    (h : ∀ word ∈ field.splitOn '_', mark ∉ word) : mark ∉ setterBody field := by
  intro hmem
  obtain ⟨word, hword, hmem⟩ := List.mem_flatMap.mp hmem
  exact Text.notMem_capitalize_of_notMem hascii hcase (h word hword) hmem

@[simp]
theorem setterBody_append (a b : List Char) :
    setterBody (a ++ '_' :: b) = setterBody a ++ setterBody b := by
  unfold setterBody
  rw [List.splitOn_append_cons_self, List.flatMap_append]

@[simp]
theorem setterBody_cons (field : List Char) : setterBody ('_' :: field) = setterBody field :=
  setterBody_append [] field

/-- Underscores before a field do not count. -/
@[simp]
theorem setterBody_replicate_append (n : Nat) (field : List Char) :
    setterBody (List.replicate n '_' ++ field) = setterBody field := by
  induction n with
  | zero => rfl
  | succ n ih => simp [List.replicate_succ, ih]

@[simp]
theorem setterBody_replicate (n : Nat) : setterBody (List.replicate n '_') = [] := by
  rw [← List.append_nil (List.replicate n '_'), setterBody_replicate_append]
  rfl

/-- Underscores between two fields count as one. -/
theorem setterBody_append_replicate (a : List Char) (n : Nat) (b : List Char) :
    setterBody (a ++ List.replicate (n + 1) '_' ++ b) = setterBody a ++ setterBody b := by
  simp [List.replicate_succ]

/-- Underscores behind a field do not count. -/
theorem setterBody_append_replicate_nil (field : List Char) (n : Nat) :
    setterBody (field ++ List.replicate n '_') = setterBody field := by
  cases n with
  | zero => simp
  | succ n => simp [List.replicate_succ]

/-! ## Snake case -/

/-- Whether a text is a word of snake case: a small ASCII letter, then small letters and digits. -/
def isSnakeWord : List Char → Bool
  | [] => false
  | c :: cs => c.isLower && cs.all fun d => d.isLower || d.isDigit

/-- Whether a name is in snake case: such words with single underscores between them. -/
def isSnakeCase (field : String) : Bool :=
  (field.toList.splitOn '_').all isSnakeWord

/-- What stands in a field for a character of a setter: the underscore and the small letter that a
capital letter comes from. -/
def uncapital (c : Char) : List Char :=
  if c.isUpper then ['_', c.toLower] else [c]

theorem not_isUpper_of_isDigit {c : Char} (h : c.isDigit = true) : ¬ c.isUpper = true := by
  rw [Char.isDigit_iff_toNat] at h
  rw [Text.isUpper_iff]
  have : '9'.toNat = 57 := rfl
  omega

theorem flatMap_uncapital_of_snake {cs : List Char}
    (h : (cs.all fun d => d.isLower || d.isDigit) = true) : cs.flatMap uncapital = cs := by
  induction cs with
  | nil => rfl
  | cons c cs ih =>
    rw [List.all_cons, Bool.and_eq_true] at h
    obtain ⟨hc, hcs⟩ := h
    have hcase : ¬ c.isUpper = true := by
      rw [Bool.or_eq_true] at hc
      rcases hc with hlower | hdigit
      · exact Char.not_isUpper_of_isLower hlower
      · exact not_isUpper_of_isDigit hdigit
    rw [List.flatMap_cons, uncapital, if_neg hcase, ih hcs, List.singleton_append]

theorem flatMap_uncapital_capitalize {word : List Char} (h : isSnakeWord word = true) :
    (Text.capitalize word).flatMap uncapital = '_' :: word := by
  cases word with
  | nil => contradiction
  | cons c cs =>
    rw [isSnakeWord, Bool.and_eq_true] at h
    obtain ⟨hlower, hrest⟩ := h
    have hascii : c.toNat < 0x80 := by
      rw [Char.isLower, Bool.and_eq_true, decide_eq_true_iff, decide_eq_true_iff] at hlower
      have : c.toNat ≤ 122 := UInt32.le_iff_toNat_le.mp hlower.2
      omega
    have hupper : c.toUpper.isUpper = true := by
      rw [Char.isUpper_toUpper_eq_isAlpha, Char.isAlpha, hlower, Bool.or_true]
    have hback : c.toUpper.toLower = c := by
      rw [Char.toLower_toUpper_eq_toLower,
        Char.toLower_eq_of_not_isUpper (Char.not_isUpper_of_isLower hlower)]
    rw [Text.capitalize, Text.upper, if_pos hascii, List.singleton_append, List.flatMap_cons,
      uncapital, if_pos hupper, hback, flatMap_uncapital_of_snake hrest]
    rfl

theorem flatMap_cons_eq_intercalate (sep : Char) {words : List (List Char)} (h : words ≠ []) :
    words.flatMap (sep :: ·) = sep :: [sep].intercalate words := by
  induction words with
  | nil => exact absurd rfl h
  | cons word words ih =>
    by_cases hnil : words = []
    · simp [hnil]
    · rw [List.flatMap_cons, ih hnil, List.intercalate_cons_of_ne_nil hnil]
      simp

/-- The field is read off its setter, with an underscore in front. -/
theorem flatMap_uncapital_setterBody {field : String} (h : isSnakeCase field = true) :
    (setterBody field.toList).flatMap uncapital = '_' :: field.toList := by
  have hwords : ∀ word ∈ field.toList.splitOn '_',
      (Text.capitalize word).flatMap uncapital = '_' :: word :=
    fun word hword => flatMap_uncapital_capitalize (List.all_eq_true.mp h word hword)
  calc (setterBody field.toList).flatMap uncapital
      = (field.toList.splitOn '_').flatMap fun word => (Text.capitalize word).flatMap uncapital :=
        List.flatMap_assoc
    _ = (field.toList.splitOn '_').flatMap ('_' :: ·) := List.flatMap_congr hwords
    _ = '_' :: ['_'].intercalate (field.toList.splitOn '_') :=
        flatMap_cons_eq_intercalate '_' (List.splitOn_ne_nil '_' _)
    _ = '_' :: field.toList := by rw [List.intercalate_splitOn]

theorem eq_of_setterName_eq {a b : String} (ha : isSnakeCase a = true)
    (hb : isSnakeCase b = true) (h : setterName a = setterName b) : a = b := by
  have hbody : setterBody a.toList = setterBody b.toList := by
    rw [setterName_eq, setterName_eq] at h
    have hlists := congrArg String.toList h
    simpa using hlists
  have hfields := flatMap_uncapital_setterBody ha
  rw [hbody, flatMap_uncapital_setterBody hb] at hfields
  exact String.toList_inj.mp (List.cons.inj hfields).2.symm

/-- The name of a setter is set with the words of the field behind it, which stand between its
underscores, each with the upper-case form of its first character; no underscore is in it. Two names
with an underscore between them have a setter named by the words of the first and then those of the
second, and underscores at the ends of a name or more than one in a row make no difference. Names in
snake case have different setters if they are different. -/
theorem setterName_joins_capitalized_words :
    (∀ field : String,
      '_' ∉ (setterName field).toList ∧
        (setterName field).toList =
          "set".toList ++ (field.toList.splitOn '_').flatMap Text.capitalize) ∧
      (∀ a b : String, ∃ words, setterName b = "set" ++ words ∧
        setterName (a ++ "_" ++ b) = setterName a ++ words) ∧
      (∀ (before after : Nat) (field : String),
        setterName (String.ofList (List.replicate before '_') ++ field ++
          String.ofList (List.replicate after '_')) = setterName field) ∧
      (∀ (n : Nat) (a b : String),
        setterName (a ++ String.ofList (List.replicate (n + 1) '_') ++ b) =
          setterName (a ++ "_" ++ b)) ∧
      ∀ a b : String, isSnakeCase a = true → isSnakeCase b = true →
        setterName a = setterName b → a = b := by
  refine ⟨fun field => ⟨?_, toList_setterName field⟩, fun a b => ?_, fun before after field => ?_,
    fun n a b => ?_, fun a b => eq_of_setterName_eq⟩
  · rw [toList_setterName, List.mem_append, not_or]
    refine ⟨by decide, notMem_setterBody (by decide) rfl fun word hword hmem => ?_⟩
    exact (Text.mem_piece_of_splitOn hword '_' hmem).2 rfl
  · refine ⟨String.ofList (setterBody b.toList), setterName_eq b, ?_⟩
    apply String.toList_inj.mp
    simp
  · apply setterName_congr
    simp only [String.toList_append, String.toList_ofList]
    rw [setterBody_append_replicate_nil, setterBody_replicate_append]
  · apply setterName_congr
    simp only [String.toList_append, String.toList_ofList]
    rw [setterBody_append_replicate, List.append_assoc]
    exact (setterBody_append a.toList b.toList).symm

/-- Two fields of the same letters, whose words end elsewhere, have different setters. -/
theorem setterName_photo_url :
    isSnakeCase "photo_url2" = true ∧ isSnakeCase "photo_u_rl2" = true ∧
      setterName "photo_url2" = "setPhotoUrl2" ∧
      setterName "photo_url2" ≠ setterName "photo_u_rl2" := by
  have hfirst : isSnakeCase "photo_url2" = true := by decide +kernel
  have hsecond : isSnakeCase "photo_u_rl2" = true := by decide +kernel
  refine ⟨hfirst, hsecond, by decide +kernel, fun heq => ?_⟩
  have hfields := setterName_joins_capitalized_words.2.2.2.2 _ _ hfirst hsecond heq
  exact absurd hfields (by decide)

end Specimen
