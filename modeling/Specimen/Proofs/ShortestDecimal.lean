import Specimen.Proofs.Display

/-!
# Seventeen digits are enough

The leading power of ten is estimated from binary logarithms, and the estimate is off by one at most
(`leadingPower_spec`). On the grid of seventeen digits a step is less than the distance of two
floats, so one of the two neighbours on it reads back (`exists_candidate`). So the search for a
shortest decimal ends with one, its coefficient is small (`coefficient_shortest_le`), and so is its
exponent (`exponent_between`).
-/

namespace Specimen.Decimal

open Binary64 (IsNearest infinityBits)

section Grid

variable {num den : Nat}

theorem scale_den_pos (hden : 0 < den) (k : Int) : 0 < (scale num den k).2 := by
  unfold scale
  cases k with
  | ofNat k => exact Nat.mul_pos hden (Nat.pow_pos (by decide))
  | negSucc k => exact hden

theorem scale_eq (num den : Nat) (k : Int) :
    ((scale num den k).1 : ℚ) / (scale num den k).2 = num / den / 10 ^ k := by
  unfold scale
  cases k with
  | ofNat k =>
    simp only [Nat.pow_eq, Int.ofNat_eq_natCast, zpow_natCast]
    push_cast
    rw [div_div]
  | negSucc k =>
    simp only [Nat.pow_eq, zpow_negSucc]
    push_cast
    rw [div_inv_eq_mul, div_mul_eq_mul_div]

theorem atLeastPower_iff (hden : 0 < den) (k : Int) :
    atLeastPower num den k = true ↔ (10 : ℚ) ^ k ≤ num / den := by
  have hdenQ : (0 : ℚ) < den := by exact_mod_cast hden
  rw [le_div_iff₀ hdenQ]
  unfold atLeastPower
  cases k with
  | ofNat k =>
    simp only [Nat.pow_eq, decide_eq_true_eq, Int.ofNat_eq_natCast, zpow_natCast]
    rw [Nat.mul_comm]
    exact_mod_cast Iff.rfl
  | negSucc k =>
    simp only [Nat.pow_eq, decide_eq_true_eq, zpow_negSucc]
    rw [inv_mul_le_iff₀ (by positivity), mul_comm]
    exact_mod_cast Iff.rfl

/-! ## The leading power of ten -/

theorem two_pow_between (k : Nat) :
    (10 : ℚ) ^ (1233 * k) ≤ 2 ^ (4096 * k) ∧ (2 : ℚ) ^ (4096 * k) ≤ 10 ^ (1234 * k) := by
  have hlo : (10 : ℚ) ^ 1233 ≤ 2 ^ 4096 := by
    exact_mod_cast (by decide +kernel : 10 ^ 1233 ≤ 2 ^ 4096)
  have hhi : (2 : ℚ) ^ 4096 ≤ 10 ^ 1234 := by
    exact_mod_cast (by decide +kernel : 2 ^ 4096 ≤ 10 ^ 1234)
  rw [pow_mul, pow_mul, pow_mul]
  exact ⟨pow_le_pow_left₀ (by positivity) hlo k, pow_le_pow_left₀ (by positivity) hhi k⟩

/-- The exponents of a power of two and of the power of ten next to it are nearly `4096 : 1233`. -/
theorem two_zpow_between {n : Int} (h : |n| ≤ 2000) :
    (10 : ℚ) ^ (1233 * n - 2000) ≤ 2 ^ (4096 * n) ∧
      (2 : ℚ) ^ (4096 * n) ≤ 10 ^ (1233 * n + 2000) := by
  obtain ⟨k, rfl | rfl⟩ := n.eq_nat_or_neg
  all_goals
    obtain ⟨hlo, hhi⟩ := two_pow_between k
    rw [← zpow_natCast, ← zpow_natCast] at hlo hhi
    push_cast at hlo hhi
    have hk : (k : Int) ≤ 2000 := by simpa using h
  · constructor
    · exact le_trans (zpow_le_zpow_right₀ (by norm_num) (by omega)) hlo
    · exact le_trans hhi (zpow_le_zpow_right₀ (by norm_num) (by omega))
  · rw [mul_neg, mul_neg, zpow_neg (2 : ℚ)]
    constructor
    · refine le_trans ?_ (inv_anti₀ (by positivity) hhi)
      rw [← zpow_neg]
      exact zpow_le_zpow_right₀ (by norm_num) (by omega)
    · refine le_trans (inv_anti₀ (by positivity) hlo) ?_
      rw [← zpow_neg]
      exact zpow_le_zpow_right₀ (by norm_num) (by omega)

/-- Powers of ten and two compare as their powers with exponent 4096 do. -/
theorem zpow_le_zpow_of_pow {a b : ℚ} (ha : 0 < a) (hb : 0 < b) {m n : Int}
    (h : a ^ (4096 * m) ≤ b ^ (4096 * n)) : a ^ m ≤ b ^ n := by
  rw [mul_comm, zpow_mul, mul_comm, zpow_mul, zpow_ofNat, zpow_ofNat] at h
  exact (pow_le_pow_iff_left₀ (zpow_pos ha m).le (zpow_pos hb n).le (by decide)).mp h

/-- The estimate by binary logarithms is off by one at most. -/
theorem leadingPower_spec (hnum : 0 < num) (hden : 0 < den)
    (hsize : |(num.log2 : Int) - den.log2| < 2000) :
    (10 : ℚ) ^ leadingPower num den ≤ num / den ∧
      (num / den : ℚ) < 10 ^ (leadingPower num den + 1) := by
  obtain ⟨hlo, hhi⟩ := Binary64.ratio_between_logs hnum hden
  set n : Int := (num.log2 : Int) - den.log2 with hn
  set guess : Int := Int.fdiv (n * 1233) 4096 with hguess
  obtain ⟨hbelow, habove⟩ : 4096 * guess ≤ 1233 * n ∧ 1233 * n < 4096 * guess + 4096 := by
    rw [hguess, Int.fdiv_eq_ediv_of_nonneg _ (by decide)]
    omega
  rw [abs_lt] at hsize
  have hleast : (10 : ℚ) ^ (guess - 1) ≤ num / den := by
    refine le_trans (zpow_le_zpow_of_pow (by norm_num) (by norm_num) ?_) hlo.le
    have hbetween := (two_zpow_between (n := n - 1) (by rw [abs_le]; omega)).1
    exact le_trans (zpow_le_zpow_right₀ (by norm_num) (by omega)) hbetween
  have hmost : (num / den : ℚ) < 10 ^ (guess + 2) := by
    refine lt_of_lt_of_le hhi (zpow_le_zpow_of_pow (by norm_num) (by norm_num) ?_)
    have hbetween := (two_zpow_between (n := n + 1) (by rw [abs_le]; omega)).2
    exact le_trans hbetween (zpow_le_zpow_right₀ (by norm_num) (by omega))
  have htop : leadingPower num den =
      if atLeastPower num den (guess + 1) then guess + 1
      else if atLeastPower num den guess then guess else guess - 1 := rfl
  rw [htop]
  by_cases hupper : atLeastPower num den (guess + 1) = true
  · rw [if_pos hupper]
    exact ⟨(atLeastPower_iff hden _).mp hupper, by rwa [add_assoc]⟩
  · rw [if_neg hupper]
    rw [atLeastPower_iff hden, not_le] at hupper
    by_cases hmiddle : atLeastPower num den guess = true
    · rw [if_pos hmiddle]
      exact ⟨(atLeastPower_iff hden _).mp hmiddle, hupper⟩
    · rw [if_neg hmiddle]
      rw [atLeastPower_iff hden, not_le] at hmiddle
      exact ⟨hleast, by rwa [sub_add_cancel]⟩

/-! ## The neighbours on a grid -/

theorem mem_neighbours_iff {tie : Tie} {k : Int} {d : Decimal} :
    d ∈ neighbours tie num den k ↔
      d = ⟨(scale num den k).1 / (scale num den k).2, k⟩ ∨
        d = ⟨(scale num den k).1 / (scale num den k).2 + 1, k⟩ := by
  unfold neighbours
  dsimp only
  split
  · rw [List.mem_pair, or_comm]
  · rw [List.mem_pair]

/-- One of the two neighbours lies within half a step of the grid. -/
theorem exists_near_neighbour (tie : Tie) (hden : 0 < den) (k : Int) :
    ∃ d ∈ neighbours tie num den k, |d.value - num / den| ≤ 10 ^ k / 2 := by
  have hpos : (0 : ℚ) < 10 ^ k := by positivity
  have hscale := scale_eq num den k
  have hscaled : (num / den : ℚ) = (scale num den k).1 / (scale num den k).2 * 10 ^ k := by
    rw [hscale, div_mul_cancel₀ _ hpos.ne']
  have hdpos := @scale_den_pos num den hden k
  have hfloor : (((scale num den k).1 / (scale num den k).2 : Nat) : ℚ) ≤
      (scale num den k).1 / (scale num den k).2 := Nat.cast_div_le
  have hceil := @Binary64.ratio_lt_floor_succ (scale num den k).1 _ hdpos
  set below := (scale num den k).1 / (scale num den k).2 with hbelow
  set x : ℚ := (scale num den k).1 / (scale num den k).2 with hx
  rw [hscaled]
  by_cases hhalf : x - below ≤ 1 / 2
  · refine ⟨⟨below, k⟩, mem_neighbours_iff.mpr (Or.inl rfl), ?_⟩
    rw [value, ← sub_mul, abs_mul, abs_of_pos hpos, abs_of_nonpos (by linarith)]
    nlinarith
  · refine ⟨⟨below + 1, k⟩, mem_neighbours_iff.mpr (Or.inr rfl), ?_⟩
    rw [value, ← sub_mul, abs_mul, abs_of_pos hpos]
    push_cast
    rw [abs_of_nonneg (by linarith)]
    nlinarith

end Grid

/-! ## The shortest decimal is found -/

/-- The number of a pattern is at most `2 ^ 53` times the distance to the pattern below it. -/
theorem value_succ_le (bits : Nat) :
    Binary64.value (bits + 1) ≤ 2 ^ 53 * 2 ^ Binary64.exponent bits := by
  have hlt : Binary64.mantissa bits + 1 ≤ 2 ^ 53 := by
    have := Binary64.mantissa_lt bits
    have : 2 * Binary64.exponentStep = 2 ^ 53 := by decide
    omega
  have hmantissa : (Binary64.mantissa bits + 1 : ℚ) ≤ 2 ^ 53 := by exact_mod_cast hlt
  have hpos := Binary64.two_zpow_pos (Binary64.exponent bits)
  rw [Binary64.value_succ, Binary64.value, ← add_one_mul]
  exact mul_le_mul_of_nonneg_right hmantissa hpos.le

theorem exponent_mono_succ (bits : Nat) :
    Binary64.exponent bits ≤ Binary64.exponent (bits + 1) := by
  rw [Binary64.exponent_eq_steps, Binary64.exponent_eq_steps]
  have hdiv : bits / Binary64.exponentStep ≤ (bits + 1) / Binary64.exponentStep :=
    Nat.div_le_div_right (Nat.le_succ bits)
  unfold Binary64.steps
  omega

/-- What lies within half of the distance to the pattern below is nearest to a pattern: the pattern
above is no closer. -/
theorem isNearest_of_near {q : ℚ} {bits : Nat} (hbits : bits + 1 < infinityBits)
    (h : |q - Binary64.value (bits + 1)| < 2 ^ Binary64.exponent bits / 2) :
    IsNearest q (bits + 1) := by
  have hbelow := Binary64.value_succ bits
  have habove := Binary64.value_succ (bits + 1)
  have hgap : (2 : ℚ) ^ Binary64.exponent bits ≤ 2 ^ Binary64.exponent (bits + 1) :=
    zpow_le_zpow_right₀ (by norm_num) (exponent_mono_succ bits)
  have hpos := Binary64.two_zpow_pos (Binary64.exponent bits)
  rw [abs_lt] at h
  rcases le_total q (Binary64.value (bits + 1)) with hle | hle
  · refine Binary64.isNearest_upper hbits.le (by linarith) hle (by linarith) fun htie => ?_
    linarith
  · refine Binary64.isNearest_lower hbits.le hle (by linarith) (by linarith) fun htie => ?_
    linarith

section Finite

variable {bits : Nat}

theorem ratio_num_pos (hzero : bits ≠ 0) : 0 < (Binary64.ratio bits).1 := by
  have hvalue := Binary64.value_pos hzero
  rw [Binary64.value_eq_ratio] at hvalue
  by_contra hnum
  rw [Nat.eq_zero_of_not_pos hnum, Nat.cast_zero, zero_div] at hvalue
  exact lt_irrefl 0 hvalue

/-- The binary logarithms of a finite pattern are well within the range of the estimate. -/
theorem log2_ratio_lt (hzero : bits ≠ 0) (hfinite : bits < infinityBits) :
    |((Binary64.ratio bits).1.log2 : Int) - (Binary64.ratio bits).2.log2| < 2000 := by
  obtain ⟨hlo, hhi⟩ :=
    Binary64.ratio_between_logs (ratio_num_pos hzero) (Binary64.ratio_den_pos bits)
  rw [← Binary64.value_eq_ratio] at hlo hhi
  have hleast : (2 : ℚ) ^ (-1074 : Int) ≤ Binary64.value bits := by
    rw [← Binary64.value_one]
    exact Binary64.value_strictMono.monotone (Nat.one_le_iff_ne_zero.mpr hzero)
  have hmost : Binary64.value bits < 2 ^ (1024 : Int) := by
    rw [← value_infinityBits]
    exact Binary64.value_strictMono hfinite
  have hbelow := (zpow_lt_zpow_iff_right₀ (by norm_num)).mp (lt_trans hlo hmost)
  have habove := (zpow_lt_zpow_iff_right₀ (by norm_num)).mp (lt_of_le_of_lt hleast hhi)
  rw [abs_lt]
  omega

/-- The decimals that are tried for a pattern are the neighbours on seventeen grids. -/
theorem mem_candidates_iff {tie : Tie} {d : Decimal} :
    d ∈ candidates tie bits ↔
      ∃ i : Nat, i < 17 ∧ d ∈ neighbours tie (Binary64.ratio bits).1 (Binary64.ratio bits).2
        (leadingPower (Binary64.ratio bits).1 (Binary64.ratio bits).2 - i) := by
  unfold candidates
  simp only [List.mem_flatMap, List.mem_range]

/-- On the grid of seventeen digits a neighbour reads back. -/
theorem exists_candidate (tie : Tie) (hzero : bits ≠ 0) (hfinite : bits < infinityBits) :
    ∃ d ∈ candidates tie bits, d.nearestBits = bits := by
  obtain ⟨below, rfl⟩ : ∃ below, bits = below + 1 := ⟨bits - 1, by omega⟩
  have hden := Binary64.ratio_den_pos (below + 1)
  have hlead := (leadingPower_spec (ratio_num_pos hzero) hden (log2_ratio_lt hzero hfinite)).1
  obtain ⟨d, hd, hnear⟩ := @exists_near_neighbour (Binary64.ratio (below + 1)).1 _ tie hden
    (leadingPower (Binary64.ratio (below + 1)).1 (Binary64.ratio (below + 1)).2 - (16 : Nat))
  refine ⟨d, mem_candidates_iff.mpr ⟨16, by decide, hd⟩, ?_⟩
  rw [← Binary64.value_eq_ratio] at hlead hnear
  generalize leadingPower (Binary64.ratio (below + 1)).1 (Binary64.ratio (below + 1)).2 = top
    at hlead hnear
  -- A step of this grid is less than the distance to the pattern below, as `2 ^ 53 < 10 ^ 16`.
  have hstep : (10 : ℚ) ^ (top - (16 : Nat)) < 2 ^ Binary64.exponent below := by
    have hle := le_trans hlead (value_succ_le below)
    have hpos := Binary64.two_zpow_pos (Binary64.exponent below)
    rw [zpow_sub₀ (by norm_num), div_lt_iff₀ (by positivity)]
    norm_num at hle ⊢
    linarith
  have hhalf := div_lt_div_of_pos_right hstep (by norm_num : (0 : ℚ) < 2)
  have hnearest := isNearest_of_near hfinite (lt_of_le_of_lt hnear hhalf)
  exact d.isNearest_nearestBits.unique hnearest

/-- The decimals that are tried have seventeen digits at most, or are a power of ten. -/
theorem coefficient_le_of_mem_candidates {tie : Tie} (hzero : bits ≠ 0)
    (hfinite : bits < infinityBits) {d : Decimal} (h : d ∈ candidates tie bits) :
    d.coefficient ≤ 10 ^ 17 := by
  obtain ⟨i, hi, hd⟩ := mem_candidates_iff.mp h
  have hden := Binary64.ratio_den_pos bits
  have hlead := (leadingPower_spec (ratio_num_pos hzero) hden (log2_ratio_lt hzero hfinite)).2
  set top := leadingPower (Binary64.ratio bits).1 (Binary64.ratio bits).2
  have hscale := scale_eq (Binary64.ratio bits).1 (Binary64.ratio bits).2 (top - i)
  set scaled := scale (Binary64.ratio bits).1 (Binary64.ratio bits).2 (top - i)
  have hless : (scaled.1 / scaled.2 : ℚ) < 10 ^ 17 := by
    rw [hscale, div_lt_iff₀ (by positivity), ← zpow_natCast, ← zpow_add₀ (by norm_num)]
    exact lt_of_lt_of_le hlead (zpow_le_zpow_right₀ (by norm_num) (by omega))
  have hfloor : ((scaled.1 / scaled.2 : Nat) : ℚ) < (10 ^ 17 : Nat) := by
    push_cast
    exact lt_of_le_of_lt Nat.cast_div_le hless
  have hbelow : scaled.1 / scaled.2 < 10 ^ 17 := by exact_mod_cast hfloor
  rcases mem_neighbours_iff.mp hd with rfl | rfl
  · exact hbelow.le
  · exact hbelow

theorem coefficient_trimZeros_le (fuel : Nat) (d : Decimal) :
    (trimZeros fuel d).coefficient ≤ d.coefficient := by
  induction fuel generalizing d with
  | zero => exact le_refl _
  | succ fuel ih =>
    unfold trimZeros
    split
    · exact le_trans (ih _) (Nat.div_le_self _ _)
    · exact le_refl _

/-- The shortest decimal of a finite float has seventeen digits at most, or is a power of ten. -/
theorem coefficient_shortest_le (tie : Tie) (hfinite : bits < infinityBits) :
    (shortest tie bits).coefficient ≤ 10 ^ 17 := by
  unfold shortest
  split
  · exact Nat.zero_le _
  · rename_i hzero
    cases hfind : (candidates tie bits).find? fun d => d.nearestBits == bits with
    | some d =>
      refine le_trans (coefficient_trimZeros_le 1 d) ?_
      exact coefficient_le_of_mem_candidates hzero hfinite (List.mem_of_find?_eq_some hfind)
    | none =>
      obtain ⟨d, hd, hbits⟩ := exists_candidate tie hzero hfinite
      exact absurd (beq_iff_eq.mpr hbits) (List.find?_eq_none.mp hfind d hd)

end Finite

/-! ## Decimals that read as a finite float -/

section Reading

variable {d : Decimal}

theorem coefficient_ne_zero (h : d.nearestBits ≠ 0) : d.coefficient ≠ 0 := by
  intro hzero
  rw [nearestBits, if_pos hzero] at h
  exact h rfl

/-- The exponent of a decimal that reads as a finite float other than zero is not far out of range,
if the decimal has few digits. -/
theorem exponent_between (hzero : d.nearestBits ≠ 0) (hfinite : d.nearestBits < infinityBits)
    (hdigits : d.coefficient ≤ 10 ^ 17) : -400 ≤ d.exponent ∧ d.exponent ≤ 400 := by
  have hcoefficient := coefficient_ne_zero hzero
  unfold nearestBits at hzero hfinite
  rw [if_neg hcoefficient] at hzero hfinite
  have hhuge : ¬ d.isHuge = true := by
    intro h
    rw [if_pos h] at hfinite
    exact lt_irrefl _ hfinite
  rw [if_neg hhuge] at hzero
  have htiny : ¬ d.isTiny = true := by
    intro h
    rw [if_pos h] at hzero
    exact hzero rfl
  have hlog : d.coefficient.log2 < 57 :=
    (Nat.log2_lt hcoefficient).mpr (lt_of_le_of_lt hdigits (by decide))
  simp only [isHuge, Bool.and_eq_true, decide_eq_true_eq, not_and, not_lt] at hhuge
  simp only [isTiny, decide_eq_true_eq, not_le] at htiny
  exact ⟨by omega, hhuge hcoefficient⟩

end Reading

end Specimen.Decimal
