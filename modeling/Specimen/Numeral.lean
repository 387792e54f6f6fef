/-!
# Decimal numerals

Natural numbers and integers as runs of the ASCII digits. Reading accepts any number of leading
zeros and no sign; writing gives the shortest numeral.
-/

namespace Specimen.Numeral

/-- The shortest numeral of a natural number. -/
def ofNat (n : Nat) : List Char :=
  Nat.toDigits 10 n

/-- The numeral of an integer, with a minus sign in front if it is negative. -/
def ofInt : Int → List Char
  | .ofNat n => ofNat n
  | .negSucc n => '-' :: ofNat (n + 1)

/-- Whether a text is one ASCII digit or more. -/
def isNumeral (cs : List Char) : Bool :=
  !cs.isEmpty && cs.all Char.isDigit

/-- The number that a run of digits denotes. -/
def value (cs : List Char) : Nat :=
  Nat.ofDigitChars 10 cs 0

/-- The number a text denotes, if it is a numeral. -/
def read? (cs : List Char) : Option Nat :=
  if isNumeral cs then some (value cs) else none

/-- The number a text denotes, if it is a numeral of at most `bound`. -/
def readUpTo? (bound : Nat) (cs : List Char) : Option Nat :=
  (read? cs).filter (· ≤ bound)

/-! ## Reading what is written -/

@[simp]
theorem isNumeral_ofNat (n : Nat) : isNumeral (ofNat n) = true := by
  have h : ∀ c ∈ ofNat n, c.isDigit = true := fun c hc =>
    Nat.isDigit_of_mem_toDigits (by decide) (by decide) hc
  simpa [isNumeral, ofNat, Nat.toDigits_ne_nil] using h

@[simp]
theorem value_ofNat (n : Nat) : value (ofNat n) = n :=
  Nat.ofDigitChars_ten_toDigits

@[simp]
theorem read?_ofNat (n : Nat) : read? (ofNat n) = some n := by
  simp [read?]

@[simp]
theorem readUpTo?_ofNat {bound n : Nat} (h : n ≤ bound) : readUpTo? bound (ofNat n) = some n := by
  simp [readUpTo?, h]

end Specimen.Numeral
