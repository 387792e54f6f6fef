import Specimen.Proofs.Magnitude

/-!
# The float nearest to a ratio

`IsNearest q bits` says what rounding to nearest means: no pattern lies closer to `q`, and of two
equally near ones the even one is taken. The pattern of infinity counts as the power of two above
the finite floats. There is one such pattern (`IsNearest.unique`), and `nearestBits` computes it
(`isNearest_nearestBits`), so the bits depend on the ratio only as a number, and a number that is
a float is kept.
-/

namespace Specimen.Binary64

/-- `bits` is the pattern nearest to `q`, a tie going to the even one. -/
structure IsNearest (q : ℚ) (bits : Nat) : Prop where
  le_infinity : bits ≤ infinityBits
  closest : ∀ other ≤ infinityBits, |q - value bits| ≤ |q - value other|
  even_of_tie : ∀ other ≤ infinityBits, other ≠ bits → |q - value bits| = |q - value other| →
    bits % 2 = 0

/-- Two patterns are not both nearest to a number, where the first is the smaller one. -/
theorem IsNearest.not_lt {q : ℚ} {a b : Nat} (ha : IsNearest q a) (hb : IsNearest q b) :
    ¬ a < b := by
  intro hlt
  have hdist : |q - value a| = |q - value b| :=
    le_antisymm (ha.closest b hb.le_infinity) (hb.closest a ha.le_infinity)
  have hvalue := value_strictMono hlt
  -- Equal distances to two numbers put `q` in the middle between them.
  have hmiddle : q - value a = value b - q := by
    rcases abs_eq_abs.mp hdist with h | h <;> linarith
  by_cases hnext : b = a + 1
  · have hevenA := ha.even_of_tie b hb.le_infinity (by omega) hdist
    have hevenB := hb.even_of_tie a ha.le_infinity (by omega) hdist.symm
    omega
  · have hbetween : |q - value (a + 1)| < |q - value a| := by
      have hlo := value_strictMono (Nat.lt_succ_self a)
      have hhi := value_strictMono (show a + 1 < b by omega)
      rw [Nat.succ_eq_add_one] at hlo
      rw [abs_of_nonneg (by linarith : 0 ≤ q - value a), abs_lt]
      constructor <;> linarith
    have := ha.closest (a + 1) (by have := hb.le_infinity; omega)
    linarith

theorem IsNearest.unique {q : ℚ} {a b : Nat} (ha : IsNearest q a) (hb : IsNearest q b) : a = b :=
  Nat.le_antisymm (Nat.le_of_not_lt (hb.not_lt ha)) (Nat.le_of_not_lt (ha.not_lt hb))

/-- A number of the grid is nearest to itself. -/
theorem isNearest_value {bits : Nat} (h : bits ≤ infinityBits) : IsNearest (value bits) bits where
  le_infinity := h
  closest other _ := by
    rw [sub_self, abs_zero]
    exact abs_nonneg _
  even_of_tie other _ hne htie := by
    rw [sub_self, abs_zero] at htie
    have hvalue : value bits = value other := by
      have := abs_eq_zero.mp htie.symm
      linarith
    exact absurd (value_strictMono.injective hvalue).symm hne

theorem isNearest_zero_zero : IsNearest 0 0 := by
  simpa using isNearest_value (Nat.zero_le infinityBits)

/-- What lies at or above infinity is nearest to infinity. -/
theorem isNearest_infinity {q : ℚ} (h : value infinityBits ≤ q) : IsNearest q infinityBits where
  le_infinity := le_refl _
  closest other hother := by
    have hvalue := value_strictMono.monotone hother
    rw [abs_of_nonneg (by linarith), abs_of_nonneg (by linarith)]
    linarith
  even_of_tie _ _ _ _ := by decide

/-! ## Between two neighbours -/

section Bracket

variable {q : ℚ} {lo : Nat}

/-- The distance to a pattern, seen from between two neighbours, is at least that to the neighbour
on its side. -/
theorem le_distance (hlo : value lo ≤ q) (hhi : q ≤ value (lo + 1)) (other : Nat) :
    (other ≤ lo ∧ q - value lo ≤ |q - value other|) ∨
      (lo + 1 ≤ other ∧ value (lo + 1) - q ≤ |q - value other|) := by
  by_cases hside : other ≤ lo
  · have := value_strictMono.monotone hside
    exact Or.inl ⟨hside, by rw [abs_of_nonneg (by linarith)]; linarith⟩
  · have hside' : lo + 1 ≤ other := by omega
    have := value_strictMono.monotone hside'
    exact Or.inr ⟨hside', by rw [abs_sub_comm, abs_of_nonneg (by linarith)]; linarith⟩

/-- Patterns beyond a neighbour are further away than the neighbour. -/
theorem lt_distance_below {other : Nat} (hlo : value lo ≤ q) (h : other < lo) :
    q - value lo < |q - value other| := by
  have := value_strictMono h
  rw [abs_of_nonneg (by linarith)]
  linarith

theorem lt_distance_above {other : Nat} (hhi : q ≤ value (lo + 1)) (h : lo + 1 < other) :
    value (lo + 1) - q < |q - value other| := by
  have := value_strictMono h
  rw [abs_sub_comm, abs_of_nonneg (by linarith)]
  linarith

/-- The lower neighbour is nearest if it is nearer, or as near and even. -/
theorem isNearest_lower (hbound : lo ≤ infinityBits) (hlo : value lo ≤ q)
    (hhi : q ≤ value (lo + 1)) (hnear : q - value lo ≤ value (lo + 1) - q)
    (heven : q - value lo = value (lo + 1) - q → lo % 2 = 0) : IsNearest q lo where
  le_infinity := hbound
  closest other _ := by
    rw [abs_of_nonneg (by linarith)]
    rcases le_distance hlo hhi other with ⟨-, h⟩ | ⟨-, h⟩ <;> linarith
  even_of_tie other _ hne htie := by
    rw [abs_of_nonneg (by linarith)] at htie
    rcases le_distance hlo hhi other with ⟨hside, -⟩ | ⟨-, h⟩
    · have := lt_distance_below hlo (show other < lo by omega)
      linarith
    · exact heven (by linarith)

/-- The upper neighbour is nearest if it is nearer, or as near and even. -/
theorem isNearest_upper (hbound : lo + 1 ≤ infinityBits) (hlo : value lo ≤ q)
    (hhi : q ≤ value (lo + 1)) (hnear : value (lo + 1) - q ≤ q - value lo)
    (heven : q - value lo = value (lo + 1) - q → (lo + 1) % 2 = 0) : IsNearest q (lo + 1) where
  le_infinity := hbound
  closest other _ := by
    rw [abs_sub_comm, abs_of_nonneg (by linarith)]
    rcases le_distance hlo hhi other with ⟨-, h⟩ | ⟨-, h⟩ <;> linarith
  even_of_tie other _ hne htie := by
    rw [abs_sub_comm, abs_of_nonneg (by linarith)] at htie
    rcases le_distance hlo hhi other with ⟨-, h⟩ | ⟨hside, -⟩
    · exact heven (by linarith)
    · have := lt_distance_above hhi (show lo + 1 < other by omega)
      linarith

end Bracket

end Specimen.Binary64
