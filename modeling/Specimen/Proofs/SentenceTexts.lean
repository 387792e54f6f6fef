import Specimen.Proofs.WordTexts

/-!
# Texts of sentences

A sentence is drawn as its words. No word of the pool has a period or a space in it, so in a text of
sentences a period before a space ends a sentence, and only a sentence: cutting the text at these
pairs gives its sentences (`splitAtPair_sentenceBody`), and cutting each of them at the spaces gives
its words (`readSentence_sentenceBody`). A text of sentences therefore tells which words were drawn
for each of its sentences, and every choice of words is drawn from some script
(`sentences_read_back`).
-/

namespace Specimen

/-! ## Reading sentences -/

namespace Text

/-- The pieces between the occurrences of `a` before `b`, one more than there are occurrences. -/
def splitAtPair (a b : Char) : List Char → List (List Char)
  | [] => [[]]
  | [c] => [[c]]
  | c :: d :: cs =>
    if c = a ∧ d = b then [] :: splitAtPair a b cs
    else (splitAtPair a b (d :: cs)).modifyHead (c :: ·)

/-- The text with the lower-case form of its first character, an ASCII letter. -/
def uncapitalize : List Char → List Char
  | [] => []
  | c :: cs => c.toLower :: cs

/-- The words of a sentence without its period, with the first letter in lower case. -/
def readSentence (sentence : List Char) : List (List Char) :=
  (sentence.splitOn ' ').modifyHead uncapitalize

/-- The words of the sentences of a text, whose last character is a period. -/
def readSentences (text : List Char) : List (List (List Char)) :=
  if text = [] then [] else (splitAtPair '.' ' ' text.dropLast).map readSentence

section Pieces

variable {a b : Char}

theorem splitAtPair_cons_of_ne {c : Char} (h : c ≠ a) {cs : List Char} (hcs : cs ≠ []) :
    splitAtPair a b (c :: cs) = (splitAtPair a b cs).modifyHead (c :: ·) := by
  obtain ⟨d, cs, rfl⟩ := List.exists_cons_of_ne_nil hcs
  rw [splitAtPair, if_neg fun hpair => h hpair.1]

theorem splitAtPair_eq_singleton {piece : List Char} (h : a ∉ piece) :
    splitAtPair a b piece = [piece] := by
  induction piece with
  | nil => rfl
  | cons c piece ih =>
    rw [List.mem_cons, not_or] at h
    by_cases hnil : piece = []
    · rw [hnil, splitAtPair]
    · rw [splitAtPair_cons_of_ne (Ne.symm h.1) hnil, ih h.2, List.modifyHead_cons]

theorem splitAtPair_append {piece : List Char} (h : a ∉ piece) (rest : List Char) :
    splitAtPair a b (piece ++ a :: b :: rest) = piece :: splitAtPair a b rest := by
  induction piece with
  | nil => rw [List.nil_append, splitAtPair, if_pos ⟨rfl, rfl⟩]
  | cons c piece ih =>
    rw [List.mem_cons, not_or] at h
    rw [List.cons_append, splitAtPair_cons_of_ne (Ne.symm h.1) (by simp), ih h.2,
      List.modifyHead_cons]

/-- Pieces without `a` are found again: by induction on the pieces. -/
theorem splitAtPair_intercalate {pieces : List (List Char)} (h : ∀ piece ∈ pieces, a ∉ piece)
    (hne : pieces ≠ []) : splitAtPair a b ([a, b].intercalate pieces) = pieces := by
  induction pieces with
  | nil => exact absurd rfl hne
  | cons piece pieces ih =>
    obtain ⟨hpiece, hpieces⟩ := List.forall_mem_cons.mp h
    by_cases hnil : pieces = []
    · rw [hnil, List.intercalate_singleton, splitAtPair_eq_singleton hpiece]
    · rw [List.intercalate_cons_of_ne_nil hnil, List.append_assoc, List.cons_append,
        List.cons_append, List.nil_append, splitAtPair_append hpiece, ih hpieces hnil]

end Pieces

/-- A mark behind every piece stands in every separator and at the end. -/
theorem intercalate_map_append (sep mark : List Char) {pieces : List (List Char)}
    (hne : pieces ≠ []) :
    sep.intercalate (pieces.map (· ++ mark)) = (mark ++ sep).intercalate pieces ++ mark := by
  induction pieces with
  | nil => exact absurd rfl hne
  | cons piece pieces ih =>
    by_cases hnil : pieces = []
    · rw [hnil, List.map_singleton, List.intercalate_singleton, List.intercalate_singleton]
    · rw [List.map_cons, List.intercalate_cons_of_ne_nil (by simpa using hnil),
        List.intercalate_cons_of_ne_nil hnil, ih hnil]
      simp only [List.append_assoc]

theorem capitalize_intercalate {sep w : List Char} (h : w ≠ []) (ws : List (List Char)) :
    capitalize (sep.intercalate (w :: ws)) = sep.intercalate (capitalize w :: ws) := by
  obtain ⟨c, cs, rfl⟩ := List.exists_cons_of_ne_nil h
  by_cases hnil : ws = []
  · rw [hnil, List.intercalate_singleton, List.intercalate_singleton]
  · rw [List.intercalate_cons_of_ne_nil hnil, List.intercalate_cons_of_ne_nil hnil]
    simp only [capitalize, List.cons_append, List.append_assoc]

end Text

namespace WordPool

/-- A word of the pool begins with a lower-case letter, and only this letter is changed. -/
theorem exists_capitalize_eq_cons {w : List Char} (h : String.ofList w ∈ words) :
    ∃ c cs, w = c :: cs ∧ Text.capitalize w = c.toUpper :: cs ∧ c.toUpper.isUpper ∧
      c.toUpper.toLower = c := by
  have hall : words.all (fun w => w.toList.head?.any fun c =>
      Text.upper c == [c.toUpper] && c.toUpper.isUpper && c.toUpper.toLower == c) = true := by
    decide +kernel
  have hfirst := List.all_eq_true.mp hall _ h
  rw [String.toList_ofList] at hfirst
  cases w with
  | nil => exact absurd hfirst (by simp)
  | cons c cs =>
    simp only [List.head?_cons, Option.any_some, Bool.and_eq_true, beq_iff_eq] at hfirst
    obtain ⟨⟨hupper, hcapital⟩, hlower⟩ := hfirst
    exact ⟨c, cs, rfl, by rw [Text.capitalize, hupper, List.singleton_append], hcapital, hlower⟩

theorem period_notMem_words {w : List Char} (h : String.ofList w ∈ words) : '.' ∉ w := by
  intro hperiod
  have hchar := (words_lowerCase _ h).2 '.' (by simpa using hperiod)
  exact absurd hchar (by decide)

theorem uncapitalize_capitalize {w : List Char} (h : String.ofList w ∈ words) :
    Text.uncapitalize (Text.capitalize w) = w := by
  obtain ⟨c, cs, rfl, hcapitalize, -, hlower⟩ := exists_capitalize_eq_cons h
  rw [hcapitalize, Text.uncapitalize, hlower]

/-- A capital letter brings in no separator. -/
theorem notMem_capitalize {w : List Char} (h : String.ofList w ∈ words) {c : Char}
    (hcase : c.isUpper = false) (hc : c ∉ w) : c ∉ Text.capitalize w := by
  obtain ⟨first, cs, rfl, hcapitalize, hupper, -⟩ := exists_capitalize_eq_cons h
  rw [hcapitalize, List.mem_cons, not_or]
  refine ⟨?_, fun hmem => hc (List.mem_cons_of_mem _ hmem)⟩
  rintro rfl
  simp [hcase] at hupper

end WordPool

namespace Generate

/-- Words with single spaces between them and a capital first letter. -/
def sentenceBody (ws : List (List Char)) : List Char :=
  Text.capitalize ([' '].intercalate ws)

/-- A sentence has a period behind its words. -/
def sentenceText (ws : List (List Char)) : List Char :=
  sentenceBody ws ++ ['.']

/-- From 4 to 17 words of the pool, of which a sentence is made. -/
structure MakesSentence (ws : List (List Char)) : Prop where
  four_le : 4 ≤ ws.length
  le_seventeen : ws.length ≤ 17
  isWord : ∀ w ∈ ws, WordPool.isWord (String.ofList w) = true

namespace MakesSentence

variable {ws : List (List Char)} (h : MakesSentence ws)

include h

theorem mem_words : ∀ w ∈ ws, String.ofList w ∈ WordPool.words :=
  fun w hw => WordPool.isWord_iff.mp (h.isWord w hw)

/-- The capital letter is the first word's, so the spaces are still between the same words. -/
theorem exists_sentenceBody_eq : ∃ w rest, ws = w :: rest ∧
    sentenceBody ws = [' '].intercalate (Text.capitalize w :: rest) := by
  obtain ⟨w, rest, rfl⟩ := List.exists_cons_of_length_pos (Nat.lt_of_lt_of_le (by decide) h.four_le)
  refine ⟨w, rest, rfl, Text.capitalize_intercalate ?_ rest⟩
  exact WordPool.nil_notMem_words (h.mem_words w List.mem_cons_self)

theorem period_notMem_sentenceBody : '.' ∉ sentenceBody ws := by
  obtain ⟨w, rest, rfl, htext⟩ := h.exists_sentenceBody_eq
  obtain ⟨hw, hrest⟩ := List.forall_mem_cons.mp h.mem_words
  rw [htext, ← joinWith_eq_intercalate]
  refine Text.notMem_joinWith (by decide) (List.forall_mem_cons.mpr ⟨?_, ?_⟩)
  · exact WordPool.notMem_capitalize hw (by decide) (WordPool.period_notMem_words hw)
  · exact fun w hmem => WordPool.period_notMem_words (hrest w hmem)

theorem readSentence_sentenceBody : Text.readSentence (sentenceBody ws) = ws := by
  obtain ⟨w, rest, rfl, htext⟩ := h.exists_sentenceBody_eq
  obtain ⟨hw, hrest⟩ := List.forall_mem_cons.mp h.mem_words
  have hspace : ∀ piece ∈ Text.capitalize w :: rest, ' ' ∉ piece := by
    refine List.forall_mem_cons.mpr ⟨?_, ?_⟩
    · exact WordPool.notMem_capitalize hw (by decide) (WordPool.space_notMem_words hw)
    · exact fun w hmem => WordPool.space_notMem_words (hrest w hmem)
  rw [htext, Text.readSentence, List.splitOn_intercalate ' ' hspace (List.cons_ne_nil _ _),
    List.modifyHead_cons, WordPool.uncapitalize_capitalize hw]

end MakesSentence

section Sentences

variable {drawn : List (List (List Char))}

/-- The period of a sentence and the space behind it stand between two bodies. -/
theorem intercalate_sentenceText (hne : drawn ≠ []) :
    [' '].intercalate (drawn.map sentenceText) =
      ['.', ' '].intercalate (drawn.map sentenceBody) ++ ['.'] := by
  have hmap : drawn.map sentenceText = (drawn.map sentenceBody).map (· ++ ['.']) := by
    rw [List.map_map]
    rfl
  rw [hmap, Text.intercalate_map_append [' '] ['.'] (by simpa using hne)]
  rfl

variable (h : ∀ ws ∈ drawn, MakesSentence ws)

include h

theorem splitAtPair_sentenceBody (hne : drawn ≠ []) :
    Text.splitAtPair '.' ' ' (['.', ' '].intercalate (drawn.map sentenceBody)) =
      drawn.map sentenceBody := by
  refine Text.splitAtPair_intercalate ?_ (by simpa using hne)
  exact List.forall_mem_map.mpr fun ws hws => (h ws hws).period_notMem_sentenceBody

theorem map_readSentence_sentenceBody : (drawn.map sentenceBody).map Text.readSentence = drawn := by
  rw [List.map_map]
  conv_rhs => rw [← List.map_id drawn]
  exact List.map_congr_left fun ws hws => (h ws hws).readSentence_sentenceBody

/-- A text without sentences is empty, and the others end with a period, so the empty text is not
taken for one empty sentence. -/
theorem readSentences_sentenceText :
    Text.readSentences ([' '].intercalate (drawn.map sentenceText)) = drawn := by
  by_cases hnil : drawn = []
  · rw [hnil]
    rfl
  · rw [intercalate_sentenceText hnil, Text.readSentences, if_neg (by simp),
      List.dropLast_concat, splitAtPair_sentenceBody h hnil, map_readSentence_sentenceBody h]

end Sentences

/-! ## Drawn sentences -/

variable {σ : Type} [RandomSource σ]

/-- The words of a sentence, drawn after their number. -/
def sentenceWords (s : σ) : Except DrawError (List (List Char) × σ) := do
  let (length, s) ← Draw.countBetween sentenceLengths.min sentenceLengths.max s
  repeated word length s

theorem sentence_eq (s : σ) : sentence s = (sentenceWords s).map (Prod.map sentenceText id) := by
  simp only [sentence, sentenceWords, words, Draw.countBetween_range, ok_bind]
  cases repeated word (Draw.count sentenceLengths s).1 (Draw.count sentenceLengths s).2 with
  | error cause => rfl
  | ok drawn =>
    simp only [ok_bind, map_ok, joinWith_eq_intercalate]
    rfl

theorem gives_sentenceWords : Draw.Gives (@sentenceWords σ _) MakesSentence := by
  intro s
  have hcount := Draw.count_mem sentenceLengths s
  obtain ⟨ws, s', hdrawn, hlength, hpool⟩ :=
    gives_repeated gives_word (Draw.count sentenceLengths s).1 (Draw.count sentenceLengths s).2
  rw [← hlength] at hcount
  refine ⟨ws, s', by simp [sentenceWords, hdrawn], hcount.1, hcount.2, fun w hw => ?_⟩
  exact WordPool.isWord_iff.mpr (hpool w hw)

omit [RandomSource σ] in
/-- Draws in a row whose results are made of the results of other draws: by induction on their
number. -/
theorem repeated_map {α β : Type} {draw : σ → Except DrawError (α × σ)} {f : α → β}
    {draw' : σ → Except DrawError (β × σ)} (h : ∀ s, draw' s = (draw s).map (Prod.map f id))
    (n : Nat) (s : σ) :
    repeated draw' n s = (repeated draw n s).map (Prod.map (List.map f) id) := by
  induction n generalizing s with
  | zero => rfl
  | succ n ih =>
    simp only [repeated, h s]
    cases draw s with
    | error cause => rfl
    | ok first =>
      simp only [map_ok, ok_bind, Prod.map_fst, Prod.map_snd, id, ih]
      cases repeated draw n first.2 <;> rfl

theorem sentences_eq (n : Nat) (s : σ) :
    sentences n s = (repeated sentenceWords n s).map
      (Prod.map (fun drawn => [' '].intercalate (drawn.map sentenceText)) id) := by
  rw [sentences, repeated_map sentence_eq]
  cases repeated sentenceWords n s with
  | error cause => rfl
  | ok drawn =>
    simp only [ok_bind, map_ok, joinWith_eq_intercalate]
    rfl

theorem scripted_sentenceWords {ws : List (List Char)} (h : MakesSentence ws) :
    ∃ words, Draw.Scripted sentenceWords ws words := by
  have hmax : sentenceLengths.max < UInt32.size := by decide
  obtain ⟨words, hlength⟩ := Draw.scripted_count hmax h.four_le h.le_seventeen
  obtain ⟨words', hwords⟩ :=
    Draw.exists_scripted_repeated fun w hw => Draw.scripted_word (h.mem_words w hw)
  exact ⟨words ++ words', hlength.andThen hwords⟩

/-- The text of some sentences is the drawn words with capital letters, periods and single spaces,
and nothing if there are no sentences. Cutting it at the periods before spaces and each piece at the
spaces gives back the drawn words. So texts of other words or of sentences that end elsewhere are
different, whatever sources they are drawn from, and every choice of 4 to 17 words for each sentence
is drawn from some script. -/
theorem sentences_read_back :
    (∀ {σ : Type} [RandomSource σ] (n : Nat) (s : σ),
      ∃ drawn text s',
        repeated sentenceWords n s = .ok (drawn, s') ∧ sentences n s = .ok (text, s') ∧
        drawn.length = n ∧ (∀ ws ∈ drawn, MakesSentence ws) ∧
        text = [' '].intercalate (drawn.map sentenceText) ∧
        (n = 0 → text = []) ∧
        (0 < n → ∃ body, text = body ++ ['.'] ∧
          (Text.splitAtPair '.' ' ' body).length = n ∧
          (Text.splitAtPair '.' ' ' body).map Text.readSentence = drawn)) ∧
      (∀ {σ τ : Type} [RandomSource σ] [RandomSource τ] (m n : Nat) (s : σ) (t : τ),
        (sentences m s).map Prod.fst = (sentences n t).map Prod.fst →
          (repeated sentenceWords m s).map Prod.fst =
            (repeated sentenceWords n t).map Prod.fst) ∧
      ∀ chosen : List (List (List Char)), (∀ ws ∈ chosen, MakesSentence ws) →
        ∃ words s',
          repeated sentenceWords chosen.length (Script.ofWords words) = .ok (chosen, s') ∧
          sentences chosen.length (Script.ofWords words) =
            .ok ([' '].intercalate (chosen.map sentenceText), s') := by
  refine ⟨fun n s => ?_, fun m n s t htext => ?_, fun chosen h => ?_⟩
  · obtain ⟨drawn, s', hdrawn, hlength, hmakes⟩ := gives_repeated gives_sentenceWords n s
    refine ⟨drawn, _, s', hdrawn, by rw [sentences_eq, hdrawn]; rfl, hlength, hmakes, rfl, ?_,
      fun hpos => ?_⟩
    · intro hzero
      rw [List.eq_nil_of_length_eq_zero (hlength.trans hzero)]
      rfl
    · have hne : drawn ≠ [] := List.ne_nil_of_length_pos (hlength.symm ▸ hpos)
      refine ⟨_, intercalate_sentenceText hne, ?_, ?_⟩
      · rw [splitAtPair_sentenceBody hmakes hne, List.length_map, hlength]
      · rw [splitAtPair_sentenceBody hmakes hne]
        exact map_readSentence_sentenceBody hmakes
  · obtain ⟨drawn, s', hdrawn, -, hmakes⟩ := gives_repeated gives_sentenceWords m s
    obtain ⟨drawn', t', hdrawn', -, hmakes'⟩ := gives_repeated gives_sentenceWords n t
    rw [sentences_eq, sentences_eq, hdrawn, hdrawn'] at htext
    have hread := congrArg Text.readSentences (Except.ok.inj htext)
    simp only [Prod.map_fst] at hread
    rw [readSentences_sentenceText hmakes, readSentences_sentenceText hmakes'] at hread
    rw [hdrawn, hdrawn', hread]
    rfl
  · obtain ⟨words, hscript⟩ :=
      Draw.exists_scripted_repeated fun ws hws => scripted_sentenceWords (h ws hws)
    refine ⟨words, _, hscript.ofWords, ?_⟩
    rw [sentences_eq, hscript.ofWords]
    rfl

/-- Some script gives two sentences of four and five words, and only these words give their text.
The text drawn from another script ends with a period and has two pieces. -/
theorem sentences_tip_tri_tip :
    (∃ words s',
      sentences 2 (Script.ofWords words) =
        .ok ("Tip tri-tip tip ham. Ham tip tip tri-tip ham.".toList, s') ∧
      ∀ (m : Nat) (t t' : Script),
        sentences m t = .ok ("Tip tri-tip tip ham. Ham tip tip tri-tip ham.".toList, t') →
          (repeated sentenceWords m t).map Prod.fst =
            .ok [["tip", "tri-tip", "tip", "ham"].map String.toList,
              ["ham", "tip", "tip", "tri-tip", "ham"].map String.toList]) ∧
      ∃ body s', sentences 2 (Script.ofWords [7]) = .ok (body ++ ['.'], s') ∧
        (Text.splitAtPair '.' ' ' body).length = 2 := by
  constructor
  · have hchosen : ∀ ws ∈ [["tip", "tri-tip", "tip", "ham"].map String.toList,
        ["ham", "tip", "tip", "tri-tip", "ham"].map String.toList], MakesSentence ws := by
      refine List.forall_mem_cons.mpr ⟨?_, List.forall_mem_cons.mpr ⟨?_, by simp⟩⟩ <;>
        exact ⟨by decide, by decide, by decide +kernel⟩
    have htext : [' '].intercalate ([["tip", "tri-tip", "tip", "ham"].map String.toList,
        ["ham", "tip", "tip", "tri-tip", "ham"].map String.toList].map sentenceText) =
          "Tip tri-tip tip ham. Ham tip tip tri-tip ham.".toList := by
      decide +kernel
    obtain ⟨words, s', hdrawn, hsentences⟩ := sentences_read_back.2.2 _ hchosen
    rw [htext] at hsentences
    refine ⟨words, s', hsentences, fun m t t' ht => ?_⟩
    refine (sentences_read_back.2.1 m 2 t (Script.ofWords words) ?_).trans
      (congrArg (Except.map Prod.fst) hdrawn)
    rw [ht]
    exact (congrArg (Except.map Prod.fst) hsentences).symm
  · obtain ⟨drawn, text, s', -, htext, -, -, -, -, hbody⟩ :=
      sentences_read_back.1 2 (Script.ofWords [7])
    obtain ⟨body, rfl, hparts, -⟩ := hbody (by decide)
    exact ⟨body, s', htext, hparts⟩

end Generate

end Specimen
