import Specimen.Proofs.Conformance

/-!
# Texts of words

A text of words is drawn word by word. Every word of the pool has words of a script that it is
drawn from, so every sequence of pool words is drawn from some script (`exists_scripted_repeated`).
Since no word of the pool has a space in it, splitting a text at its spaces gives back the drawn
words, and the texts that can be drawn are exactly the words of the pool in admitted numbers with
single spaces between them (`text_words_exact`).
-/

namespace Specimen

/-! ## Draws from a script -/

namespace Draw

variable {α β : Type}

/-- A draw gives `a` from a script that begins with `words`, and goes on behind them. -/
def Scripted (draw : Script → Except DrawError (α × Script)) (a : α) (words : List UInt64) : Prop :=
  ∀ all rest, draw ⟨all, words ++ rest⟩ = .ok (a, ⟨all, rest⟩)

section Scripted

variable {draw : Script → Except DrawError (α × Script)} {a : α} {words : List UInt64}

theorem Scripted.ofWords (h : Scripted draw a words) :
    draw (.ofWords words) = .ok (a, ⟨words, []⟩) := by
  have hdrawn := h words []
  rwa [List.append_nil] at hdrawn

theorem Scripted.andThen {next : α → Script → Except DrawError (β × Script)} {b : β}
    {words' : List UInt64} (h : Scripted draw a words) (hnext : Scripted (next a) b words') :
    Scripted (fun s => draw s >>= fun drawn => next drawn.1 drawn.2) b (words ++ words') := by
  intro all rest
  simp only [List.append_assoc, h all (words' ++ rest), ok_bind, hnext all rest]

end Scripted

/-- What can be drawn from scripts one by one can be drawn in a row: by induction on the results. -/
theorem exists_scripted_repeated {draw : Script → Except DrawError (α × Script)} {results : List α}
    (h : ∀ a ∈ results, ∃ words, Scripted draw a words) :
    ∃ words, Scripted (Generate.repeated draw results.length) results words := by
  induction results with
  | nil => exact ⟨[], fun all rest => rfl⟩
  | cons a results ih =>
    obtain ⟨⟨words, hfirst⟩, hrest⟩ := List.forall_mem_cons.mp h
    obtain ⟨words', hothers⟩ := ih hrest
    refine ⟨words ++ words', fun all rest => ?_⟩
    simp only [List.length_cons, Generate.repeated, List.append_assoc, hfirst all (words' ++ rest),
      hothers all rest, ok_bind]

theorem scripted_count {counts : CountRange} (h : counts.max < UInt32.size) {k : Nat}
    (hmin : counts.min ≤ k) (hmax : k ≤ counts.max) :
    ∃ words, Scripted (countBetween counts.min counts.max) k words := by
  have hsize : counts.max - counts.min + 1 ≤ WordWidth.bits32.count := by
    rw [WordWidth.count_bits32]
    omega
  refine ⟨wordsFor .bits32 (counts.max - counts.min + 1) (k - counts.min), fun all rest => ?_⟩
  rw [countBetween_range, count_of_lt h, below_wordsFor (by omega) hsize, Nat.add_sub_cancel' hmin]

theorem scripted_index {width : WordWidth} {size : Nat} (hsize : size ≤ width.count)
    (i : Fin size) : Scripted (index width size) i (wordsFor width size i) := by
  intro all rest
  simp only [index_of_pos i.pos, below_wordsFor i.isLt hsize all rest]

theorem scripted_word {w : List Char} (h : String.ofList w ∈ WordPool.words) :
    ∃ words, Scripted Generate.word w words := by
  obtain ⟨i, hi, hget⟩ := List.mem_iff_getElem.mp h
  rw [WordPool.length_words] at hi
  have hsize : WordPool.size ≤ WordWidth.bits32.count := by decide
  refine ⟨wordsFor .bits32 WordPool.size i, fun all rest => ?_⟩
  have hdrawn := scripted_index hsize ⟨i, hi⟩ all rest
  obtain ⟨j, s', w', hindex, -, hword, hgives⟩ :=
    word_eq_index (⟨all, wordsFor .bits32 WordPool.size i ++ rest⟩ : Script)
  cases hdrawn.symm.trans hindex
  rw [List.getElem?_eq_some_iff.mpr ⟨_, hget⟩, Option.some.injEq] at hword
  rw [hgives, ← hword, String.toList_ofList]

/-! ## The words taken by draws in a row -/

variable {σ : Type} [RandomSource σ] {width : WordWidth}

theorem skip_add (width : WordWidth) (m n : Nat) (s : σ) :
    skip width (m + n) s = skip width n (skip width m s) := by
  induction m generalizing s with
  | zero => rw [Nat.zero_add, skip]
  | succ m ih => rw [Nat.succ_add, skip, skip, ih]

/-- Draws of one word or two take between one and two words each. -/
theorem repeated_skip {draw : σ → Except DrawError (α × σ)}
    (h : ∀ {s s' : σ} {a : α}, draw s = .ok (a, s') →
      ∃ n, (n = 1 ∨ n = 2) ∧ s' = skip width n s) {k : Nat} {s s' : σ} {as : List α}
    (hdrawn : Generate.repeated draw k s = .ok (as, s')) :
    ∃ n, k ≤ n ∧ n ≤ 2 * k ∧ s' = skip width n s := by
  induction k generalizing s as with
  | zero =>
    cases hdrawn
    exact ⟨0, Nat.le_refl 0, Nat.le_refl 0, rfl⟩
  | succ k ih =>
    obtain ⟨⟨a, s₁⟩, hfirst, hlater⟩ := bind_eq_ok_iff.mp hdrawn
    obtain ⟨⟨others, s₂⟩, hothers, hall⟩ := bind_eq_ok_iff.mp hlater
    cases hall
    obtain ⟨m, hm, rfl⟩ := h hfirst
    obtain ⟨n, hlo, hhi, rfl⟩ := ih hothers
    exact ⟨m + n, by omega, by omega, (skip_add width m n s).symm⟩

end Draw

/-! ## Spaces between words -/

namespace WordPool

theorem isWord_iff {token : String} : isWord token = true ↔ token ∈ words :=
  List.contains_iff_mem

/-- The words of the pool are not empty and consist of lower-case ASCII letters and hyphens. -/
theorem words_lowerCase : ∀ w ∈ words, w.toList ≠ [] ∧ ∀ c ∈ w.toList, c.isLower ∨ c = '-' := by
  have hall : words.all (fun w =>
      !w.toList.isEmpty && w.toList.all fun c => c.isLower || c == '-') = true := by
    decide +kernel
  simpa using hall

theorem nil_notMem_words {w : List Char} (h : String.ofList w ∈ words) : w ≠ [] := by
  simpa using (words_lowerCase _ h).1

theorem space_notMem_words {w : List Char} (h : String.ofList w ∈ words) : ' ' ∉ w := by
  intro hspace
  have hchar := (words_lowerCase _ h).2 ' ' (by simpa using hspace)
  exact absurd hchar (by decide)

end WordPool

/-- Words of the pool with single spaces between them, and none elsewhere. -/
structure SpacedWords (text : List Char) (ws : List (List Char)) : Prop where
  eq_intercalate : text = [' '].intercalate ws
  isWord : ∀ w ∈ ws, WordPool.isWord (String.ofList w) = true
  splitOn_eq : ws ≠ [] → text.splitOn ' ' = ws
  no_leading : text.head? ≠ some ' '
  no_trailing : text.getLast? ≠ some ' '
  no_double : ¬ [' ', ' '] <:+: text

/-- A space at the beginning, at the end or beside another one would make an empty piece. -/
theorem spacedWords_intercalate {ws : List (List Char)}
    (h : ∀ w ∈ ws, String.ofList w ∈ WordPool.words) :
    SpacedWords ([' '].intercalate ws) ws := by
  have hsplit : ws ≠ [] → ([' '].intercalate ws).splitOn ' ' = ws :=
    List.splitOn_intercalate ' ' fun w hw => WordPool.space_notMem_words (h w hw)
  have hpiece : ∀ before after, [' '].intercalate ws = before ++ ' ' :: after →
      [] ∉ before.splitOn ' ' ++ after.splitOn ' ' := by
    intro before after htext hnil
    have hne : ws ≠ [] := by
      rintro rfl
      simp at htext
    rw [← List.splitOn_append_cons_self, ← htext, hsplit hne] at hnil
    exact WordPool.nil_notMem_words (h [] hnil) rfl
  refine ⟨rfl, fun w hw => WordPool.isWord_iff.mpr (h w hw), hsplit, ?_, ?_, ?_⟩
  · intro hhead
    obtain ⟨after, htext⟩ := List.head?_eq_some_iff.mp hhead
    exact hpiece [] after htext (by simp)
  · intro hlast
    obtain ⟨before, htext⟩ := List.getLast?_eq_some_iff.mp hlast
    exact hpiece before [] htext (by simp)
  · rintro ⟨before, after, htext⟩
    refine hpiece before (' ' :: after) (by simpa using htext.symm) ?_
    have hafter : (' ' :: after).splitOn ' ' = [] :: after.splitOn ' ' :=
      List.splitOn_append_cons_self [] after
    simp [hafter]

/-! ## Drawn texts -/

namespace Generate

variable {σ : Type} [RandomSource σ]

theorem scripted_amount {a : Amount} (h : ∀ counts, a = .range counts → counts.max < UInt32.size)
    {k : Nat} (hk : a.Admits k) : ∃ words, Draw.Scripted (amount a) k words := by
  cases a with
  | fixed count =>
    obtain rfl : k = count := hk
    exact ⟨[], fun all rest => rfl⟩
  | range counts => exact Draw.scripted_count (h counts rfl) hk.1 hk.2

theorem word_skip {s s' : σ} {w : List Char} (h : word s = .ok (w, s')) :
    ∃ n, (n = 1 ∨ n = 2) ∧ s' = Draw.skip .bits32 n s := by
  obtain ⟨⟨i, s₁⟩, hindex, hword⟩ := bind_eq_ok_iff.mp h
  cases hword
  exact (Draw.index_givesExactly (by decide) (by decide)).taken
    (congrArg (Except.map (Prod.map Fin.val id)) hindex)

/-- The words of a text are drawn after its amount. -/
theorem text_words_eq {a : Amount} {s s₁ s₂ : σ} {count : Nat} {ws : List (List Char)}
    (hamount : amount a s = .ok (count, s₁)) (hwords : repeated word count s₁ = .ok (ws, s₂)) :
    text ⟨.words, a⟩ s = .ok ([' '].intercalate ws, s₂) := by
  simp [text, words, hamount, hwords, joinWith_eq_intercalate]

/-- From every source an amount is drawn and then as many words of the pool. -/
theorem exists_text_words (a : Amount) (s : σ) :
    ∃ count s₁ ws s₂, amount a s = .ok (count, s₁) ∧ repeated word count s₁ = .ok (ws, s₂) ∧
      text ⟨.words, a⟩ s = .ok ([' '].intercalate ws, s₂) ∧ a.Admits count ∧
      ws.length = count ∧ ∀ w ∈ ws, String.ofList w ∈ WordPool.words := by
  obtain ⟨count, s₁, hamount, hadmits⟩ := gives_amount a s
  obtain ⟨ws, s₂, hwords, hlength, hpool⟩ := gives_repeated gives_word count s₁
  exact ⟨count, s₁, ws, s₂, hamount, hwords, text_words_eq hamount hwords, hadmits, hlength, hpool⟩

theorem exists_script_text_words {a : Amount}
    (h : ∀ counts, a = .range counts → counts.max < UInt32.size) {ws : List (List Char)}
    (hcount : a.Admits ws.length) (hpool : ∀ w ∈ ws, String.ofList w ∈ WordPool.words) :
    ∃ words s', text ⟨.words, a⟩ (Script.ofWords words) = .ok ([' '].intercalate ws, s') := by
  obtain ⟨words, hamount⟩ := scripted_amount h hcount
  obtain ⟨words', hwords⟩ :=
    Draw.exists_scripted_repeated fun w hw => Draw.scripted_word (hpool w hw)
  have hwords' := hwords (words ++ words') []
  rw [List.append_nil] at hwords'
  exact ⟨words ++ words', _, text_words_eq (hamount (words ++ words') words') hwords'⟩

/-- The texts of words that can be drawn are the words of the pool, in numbers that the amount
admits, with single spaces between them. From every source the drawn words are those between the
spaces of the text. The number of words is drawn first, if it is not fixed, and then the words are,
from one or two words of the source each. -/
theorem text_words_exact (a : Amount)
    (h : ∀ counts, a = .range counts → counts.max < UInt32.size) :
    (∀ cs : List Char,
      (∃ (σ : Type) (_ : RandomSource σ) (s s' : σ), text ⟨.words, a⟩ s = .ok (cs, s')) ↔
        ∃ ws : List (List Char), a.Admits ws.length ∧
          (∀ w ∈ ws, String.ofList w ∈ WordPool.words) ∧ cs = [' '].intercalate ws) ∧
      (∀ {σ : Type} [RandomSource σ] (s : σ),
        ∃ count s₁ ws cs s₂,
          amount a s = .ok (count, s₁) ∧ repeated word count s₁ = .ok (ws, s₂) ∧
          text ⟨.words, a⟩ s = .ok (cs, s₂) ∧
          value (.text ⟨.words, a⟩) s = .ok (.text (String.ofList cs), s₂) ∧
          a.Admits count ∧ ws.length = count ∧ SpacedWords cs ws ∧
          (∀ n, a = .fixed n → count = n ∧ s₁ = s) ∧
          (∀ counts, a = .range counts →
            ∃ n, (n = 1 ∨ n = 2) ∧ s₁ = Draw.skip .bits32 n s) ∧
          ∃ n, count ≤ n ∧ n ≤ 2 * count ∧ s₂ = Draw.skip .bits32 n s₁) ∧
      ∀ {σ : Type} [RandomSource σ] (n : Nat) (s : Counted σ),
        (Draw.skip .bits32 n s).draws = s.draws + n := by
  refine ⟨fun cs => ⟨?_, ?_⟩, fun s => ?_, Draw.draws_skip .bits32⟩
  · rintro ⟨σ, _, s, s', hdrawn⟩
    obtain ⟨count, s₁, ws, s₂, -, -, htext, hadmits, rfl, hpool⟩ := exists_text_words a s
    cases htext.symm.trans hdrawn
    exact ⟨ws, hadmits, hpool, rfl⟩
  · rintro ⟨ws, hcount, hpool, rfl⟩
    obtain ⟨words, s', htext⟩ := exists_script_text_words h hcount hpool
    exact ⟨Script, inferInstance, _, s', htext⟩
  · obtain ⟨count, s₁, ws, s₂, hamount, hwords, htext, hadmits, hlength, hpool⟩ :=
      exists_text_words a s
    refine ⟨count, s₁, ws, _, s₂, hamount, hwords, htext, ?_, hadmits, hlength,
      spacedWords_intercalate hpool, ?_, ?_, Draw.repeated_skip word_skip hwords⟩
    · simp [value, htext]
    · rintro n rfl
      cases hamount
      exact ⟨rfl, rfl⟩
    · rintro counts rfl
      exact (Draw.countBetween_givesExactly (h counts rfl)).taken hamount

/-- Two or three words: some source gives three words with the spaces between them, and the words of
this text are those between its spaces. -/
theorem text_words_tip_tri_tip :
    (∃ (σ : Type) (_ : RandomSource σ) (s s' : σ),
        text ⟨.words, .range ⟨2, 3, by decide⟩⟩ s = .ok ("tip tri-tip tip".toList, s')) ∧
      ∃ cs ws s', text ⟨.words, .range ⟨2, 3, by decide⟩⟩ (Script.ofWords [7]) = .ok (cs, s') ∧
        (2 ≤ ws.length ∧ ws.length ≤ 3) ∧ SpacedWords cs ws := by
  have hmax : ∀ counts, Amount.range ⟨2, 3, by decide⟩ = .range counts →
      counts.max < UInt32.size := by
    rintro counts ⟨⟩
    decide
  constructor
  · refine ((text_words_exact _ hmax).1 _).mpr
      ⟨["tip".toList, "tri-tip".toList, "tip".toList], ⟨by decide, by decide⟩, ?_, rfl⟩
    decide +kernel
  · obtain ⟨count, s₁, ws, cs, s₂, -, -, htext, -, hadmits, rfl, hspaced, -⟩ :=
      (text_words_exact _ hmax).2.1 (Script.ofWords [7])
    exact ⟨cs, ws, s₂, htext, hadmits, hspaced⟩

end Generate

end Specimen
