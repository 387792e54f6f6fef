import Specimen.Generate.Value
import Specimen.Proofs.Results

/-!
# What a draw from a range can give

A number below a size is drawn from one word or two, and every number below the size is drawn from
some words (`below_wordsFor`). An integer or a count of a range is therefore any of those in the
range and no other (`draws_cover_ranges`).
-/

namespace Specimen

theorem WordWidth.count_pos (width : WordWidth) : 0 < width.count := by
  cases width <;> decide

theorem WordWidth.count_bits32 : WordWidth.bits32.count = UInt32.size := rfl

namespace Draw

variable {σ : Type} [RandomSource σ]

/-! ## The words that a draw takes -/

/-- The state after `n` words of a width. -/
def skip (width : WordWidth) : Nat → σ → σ
  | 0, s => s
  | n + 1, s => skip width n (word width s).2

@[simp]
theorem draws_skip (width : WordWidth) (n : Nat) (s : Counted σ) :
    (skip width n s).draws = s.draws + n := by
  induction n generalizing s with
  | zero => rfl
  | succ n ih =>
    have hone : (word width s).2.draws = s.draws + 1 := by cases width <;> rfl
    rw [skip, ih, hone]
    omega

theorem below_skip (width : WordWidth) (size : Nat) (s : σ) :
    ∃ n, (n = 1 ∨ n = 2) ∧ (below width size s).2 = skip width n s := by
  unfold below
  simp only
  split
  · exact ⟨2, Or.inr rfl, rfl⟩
  · exact ⟨1, Or.inl rfl, rfl⟩

/-! ## Words for a number -/

/-- The least word that scales to `k`. -/
def firstWord (width : WordWidth) (size k : Nat) : Nat :=
  (k * width.count + (size - 1)) / size

/-- Words from which `k` is drawn: the least one that scales to it and, where a second one is drawn,
a zero, which carries nothing. -/
def wordsFor (width : WordWidth) (size k : Nat) : List UInt64 :=
  let first := firstWord width size k
  if width.count - size < first * size % width.count then [UInt64.ofNat first, 0]
  else [UInt64.ofNat first]

section Words

variable {width : WordWidth} {size k : Nat}

/-- The least word that scales to `k` leaves less than the size. -/
theorem firstWord_mul (hk : k < size) :
    ∃ r < size, firstWord width size k * size = k * width.count + r := by
  have hpos : 0 < size := Nat.zero_lt_of_lt hk
  have hsplit := Nat.div_add_mod (k * width.count + (size - 1)) size
  have hmod := Nat.mod_lt (k * width.count + (size - 1)) hpos
  refine ⟨size - 1 - (k * width.count + (size - 1)) % size, by omega, ?_⟩
  rw [firstWord, Nat.mul_comm _ size]
  omega

theorem firstWord_lt (hk : k < size) (hsize : size ≤ width.count) :
    firstWord width size k < width.count := by
  have hpos : 0 < size := Nat.zero_lt_of_lt hk
  have hle : k * width.count + width.count ≤ size * width.count := by
    rw [← Nat.succ_mul]
    exact Nat.mul_le_mul_right _ hk
  rw [firstWord, Nat.div_lt_iff_lt_mul hpos, Nat.mul_comm width.count]
  omega

theorem word_script {n : Nat} (h : n < width.count) (words rest : List UInt64) :
    word width (⟨words, UInt64.ofNat n :: rest⟩ : Script) = (n, ⟨words, rest⟩) := by
  cases width with
  | bits32 =>
    have hn : n < 2 ^ 32 := h
    have hword : (UInt64.ofNat n).toUInt32.toNat = n := by
      have hsize : n < UInt64.size := Nat.lt_trans hn (by decide)
      rw [UInt64.toNat_toUInt32, UInt64.toNat_ofNat_of_lt' hsize, Nat.mod_eq_of_lt hn]
    exact congrArg (·, (⟨words, rest⟩ : Script)) hword
  | bits64 =>
    have hword : (UInt64.ofNat n).toNat = n := UInt64.toNat_ofNat_of_lt h
    exact congrArg (·, (⟨words, rest⟩ : Script)) hword

/-- A script that begins with the words for `k` gives `k` and goes on after them. -/
theorem below_wordsFor (hk : k < size) (hsize : size ≤ width.count) (words rest : List UInt64) :
    below width size (⟨words, wordsFor width size k ++ rest⟩ : Script) = (k, ⟨words, rest⟩) := by
  obtain ⟨r, hr, hmul⟩ := @firstWord_mul width size k hk
  have hlt := firstWord_lt hk hsize
  have hrcount : r < width.count := Nat.lt_of_lt_of_le hr hsize
  have hscaled : firstWord width size k * size / width.count = k := by
    rw [hmul, Nat.mul_comm k, Nat.mul_add_div width.count_pos, Nat.div_eq_of_lt hrcount,
      Nat.add_zero]
  have hcutOff : firstWord width size k * size % width.count = r := by
    rw [hmul, Nat.mul_comm k, Nat.mul_add_mod, Nat.mod_eq_of_lt hrcount]
  unfold wordsFor below
  simp only [hcutOff]
  split
  · rename_i hcut
    have hzero := word_script width.count_pos words rest
    -- The second word is zero, so that nothing is carried and the scaled word stays.
    simp only [List.cons_append, List.nil_append, word_script hlt, hscaled, hcutOff, if_pos hcut]
    rw [show (0 : UInt64) = UInt64.ofNat 0 from rfl, hzero]
    simp only [Nat.zero_mul, Nat.zero_div, Nat.add_zero]
    rw [if_neg (by omega), Nat.add_zero]
  · rename_i hcut
    simp only [List.cons_append, List.nil_append, word_script hlt, hscaled, hcutOff, if_neg hcut]

end Words

/-! ## Integers -/

/-- The number of integers of a range. -/
def rangeSize (range : IntRange) : Nat :=
  (range.max.toInt - range.min.toInt + 1).toNat

section Integer

variable {range : IntRange}

theorem toInt_min_le_max (range : IntRange) : range.min.toInt ≤ range.max.toInt :=
  Int64.le_iff_toInt_le.mp range.min_le_max

theorem rangeSize_pos (range : IntRange) : 0 < rangeSize range := by
  have := toInt_min_le_max range
  unfold rangeSize
  omega

theorem toNat_toUInt64 (x : Int64) : (x.toUInt64.toNat : Int) = x.toInt % UInt64.size := by
  have hlt := x.toUInt64.toNat_lt
  rw [← Int64.toInt_toBitVec, BitVec.toInt_eq_toNat_cond, Int64.toNat_toBitVec, UInt64.size]
  split <;> omega

theorem integer_of_not_full (h : rangeSize range ≠ UInt64.size) (s : σ) :
    integer range s =
      (Int64.ofInt (range.min.toInt + (below .bits64 (rangeSize range) s).1),
        (below .bits64 (rangeSize range) s).2) := by
  unfold integer
  exact if_neg h

/-- An integer whose distance from the least one is below the size is in the range. -/
theorem toInt_add_of_lt {k : Nat} (h : k < rangeSize range) :
    (Int64.ofInt (range.min.toInt + k)).toInt = range.min.toInt + k := by
  have hmin := range.min.le_toInt
  have hmax := range.max.toInt_lt
  unfold rangeSize at h
  exact Int64.toInt_ofInt_of_le (by omega) (by omega)

theorem integer_mem (range : IntRange) (s : σ) :
    range.min ≤ (integer range s).1 ∧ (integer range s).1 ≤ range.max := by
  have hmin := range.min.le_toInt
  have hmax := range.max.toInt_lt
  rw [Int64.le_iff_toInt_le, Int64.le_iff_toInt_le]
  by_cases hfull : rangeSize range = UInt64.size
  · have hlo := (integer range s).1.le_toInt
    have hhi := (integer range s).1.toInt_lt
    unfold rangeSize UInt64.size at hfull
    omega
  · have hlt := below_lt .bits64 (rangeSize_pos range) s
    rw [integer_of_not_full hfull, toInt_add_of_lt hlt]
    generalize (below .bits64 (rangeSize range) s).1 = k at hlt
    unfold rangeSize at hlt
    omega

end Integer

/-! ## Exact draws -/

/-- From every state a draw gives a value of `p`. -/
def Gives {σ α : Type} (draw : σ → Except DrawError (α × σ)) (p : α → Prop) : Prop :=
  ∀ s, ∃ a s', draw s = .ok (a, s') ∧ p a

theorem Gives.of_eq_ok {σ α : Type} {draw : σ → Except DrawError (α × σ)} {p : α → Prop}
    (h : Gives draw p) {s s' : σ} {a : α} (hdrawn : draw s = .ok (a, s')) : p a := by
  obtain ⟨b, t, heq, hb⟩ := h s
  cases heq.symm.trans hdrawn
  exact hb

/-- A draw gives exactly the values of `p`: one of them from every source, and each of them from a
script of some words. It takes one or two words of a width. -/
structure GivesExactly {α : Type} (width : WordWidth)
    (draw : {σ : Type} → [RandomSource σ] → σ → Except DrawError (α × σ)) (p : α → Prop) :
    Prop where
  gives : ∀ {σ : Type} [RandomSource σ], Gives (fun s : σ => draw s) p
  reached : ∀ a, p a → ∃ words s', draw (Script.ofWords words) = .ok (a, s')
  taken : ∀ {σ : Type} [RandomSource σ] {s s' : σ} {a : α}, draw s = .ok (a, s') →
    ∃ n, (n = 1 ∨ n = 2) ∧ s' = skip width n s

/-- A draw that looks at its range and finds it in order gives what the range does. -/
theorem givesExactly_of_ok {α : Type} {width : WordWidth}
    {draw : {σ : Type} → [RandomSource σ] → σ → Except DrawError (α × σ)}
    {drawn : {σ : Type} → [RandomSource σ] → σ → α × σ} {p : α → Prop}
    (hok : ∀ {σ : Type} [RandomSource σ] (s : σ), draw s = .ok (drawn s))
    (hwithin : ∀ {σ : Type} [RandomSource σ] (s : σ), p (drawn s).1)
    (hreached : ∀ a, p a → ∃ words, (drawn (Script.ofWords words)).1 = a)
    (htaken : ∀ {σ : Type} [RandomSource σ] (s : σ),
      ∃ n, (n = 1 ∨ n = 2) ∧ (drawn s).2 = skip width n s) :
    GivesExactly width draw p where
  gives s := ⟨(drawn s).1, (drawn s).2, hok s, hwithin s⟩
  reached a ha := by
    obtain ⟨words, rfl⟩ := hreached a ha
    exact ⟨words, (drawn (Script.ofWords words)).2, hok _⟩
  taken {σ _ s s' a} hdrawn := by
    rw [hok s, Except.ok.injEq] at hdrawn
    have hstate : (drawn s).2 = s' := congrArg Prod.snd hdrawn
    exact hstate ▸ htaken s

@[simp]
theorem integerBetween_range (range : IntRange) (s : σ) :
    integerBetween range.min range.max s = .ok (integer range s) :=
  dif_pos range.min_le_max

theorem below_reached {width : WordWidth} {size k : Nat} (hk : k < size)
    (hsize : size ≤ width.count) : ∃ words, (below width size (Script.ofWords words)).1 = k := by
  have hdrawn := below_wordsFor hk hsize (wordsFor width size k) []
  rw [List.append_nil] at hdrawn
  exact ⟨wordsFor width size k, congrArg Prod.fst hdrawn⟩

theorem index_of_pos {width : WordWidth} {size : Nat} (h : 0 < size) (s : σ) :
    index width size s =
      .ok (⟨(below width size s).1, below_lt width h s⟩, (below width size s).2) :=
  dif_pos h

theorem index_givesExactly {width : WordWidth} {size : Nat} (hpos : 0 < size)
    (hsize : size ≤ width.count) :
    GivesExactly width (fun s => (index width size s).map (Prod.map Fin.val id)) (· < size) := by
  refine givesExactly_of_ok (fun s => ?_) (below_lt width hpos)
    (fun k hk => below_reached hk hsize) (below_skip width size)
  rw [index_of_pos hpos, map_ok]
  rfl

@[simp]
theorem countBetween_range (counts : CountRange) (s : σ) :
    countBetween counts.min counts.max s = .ok (count counts s) :=
  dif_pos counts.min_le_max

theorem count_mem (counts : CountRange) (s : σ) :
    counts.min ≤ (count counts s).1 ∧ (count counts s).1 ≤ counts.max := by
  have hle := counts.min_le_max
  have hlt := below_lt (countWidth counts.max)
    (show 0 < counts.max - counts.min + 1 from Nat.succ_pos _) s
  unfold count
  simp only
  omega

theorem count_of_lt {counts : CountRange} (h : counts.max < UInt32.size) (s : σ) :
    count counts s =
      (counts.min + (below .bits32 (counts.max - counts.min + 1) s).1,
        (below .bits32 (counts.max - counts.min + 1) s).2) := by
  have hwidth : countWidth counts.max = .bits32 := if_pos h
  rw [count, hwidth]

/-- A count is drawn exactly if the width of its words has a word for each count of the range. -/
theorem countBetween_givesExactly {counts : CountRange} (h : counts.max < UInt32.size) :
    GivesExactly .bits32 (countBetween counts.min counts.max)
      fun k => counts.min ≤ k ∧ k ≤ counts.max := by
  have hle := counts.min_le_max
  have hsize : counts.max - counts.min + 1 ≤ WordWidth.bits32.count := by
    rw [WordWidth.count_bits32]
    omega
  refine givesExactly_of_ok (countBetween_range counts) (count_mem counts) (fun k hk => ?_)
    (fun s => ?_)
  · obtain ⟨words, hdrawn⟩ := below_reached (show k - counts.min < _ by omega) hsize
    refine ⟨words, ?_⟩
    rw [count_of_lt h, hdrawn]
    omega
  · rw [count_of_lt h]
    exact below_skip .bits32 _ s

/-- The drawn index of a word is one of the pool. -/
theorem word_eq_index (s : σ) :
    ∃ (i : Fin WordPool.size) (s' : σ) (w : String),
      index .bits32 WordPool.size s = .ok (i, s') ∧ below .bits32 WordPool.size s = (i.val, s') ∧
        WordPool.words[i.val]? = some w ∧ Generate.word s = .ok (w.toList, s') := by
  have hindex := @index_of_pos _ _ .bits32 WordPool.size (by decide) s
  refine ⟨_, _, WordPool.word _, hindex, rfl, List.getElem?_eq_getElem _, ?_⟩
  rw [Generate.word, hindex, ok_bind]

end Draw

end Specimen
