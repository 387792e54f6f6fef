import Specimen.Decimal.Basic

/-!
# The shortest decimal of a float

Among the decimals that read back as a given float, the shortest has the fewest digits and, among
those, lies nearest. For each number of digits the two neighbours of the float on that decimal grid
are tried; the first grid with a neighbour that reads back decides. Where two neighbours are equally
near, a `Tie` rule picks one.
-/

namespace Specimen

/-- Which of two equally near decimals is taken. -/
inductive Tie where
  /-- The larger one. -/
  | up
  /-- The one with the even last digit. -/
  | even
  deriving DecidableEq, Repr

namespace Decimal

/-- Whether `num / den` is at least `10 ^ k`. -/
def atLeastPower (num den : Nat) : Int → Bool
  | .ofNat k => den * Nat.pow 10 k ≤ num
  | .negSucc k => den ≤ num * Nat.pow 10 (k + 1)

/-- The `k` with `10 ^ k ≤ num / den < 10 ^ (k + 1)`, from an estimate by binary logarithms that is
off by one at most. -/
def leadingPower (num den : Nat) : Int :=
  let guess := Int.fdiv (((num.log2 : Int) - den.log2) * 1233) 4096
  if atLeastPower num den (guess + 1) then guess + 1
  else if atLeastPower num den guess then guess
  else guess - 1

/-- The ratio `num / den` measured in units of `10 ^ k`. -/
def scale (num den : Nat) : Int → Nat × Nat
  | .ofNat k => (num, den * Nat.pow 10 k)
  | .negSucc k => (num * Nat.pow 10 (k + 1), den)

/-- The neighbours of `num / den` on the grid of the multiples of `10 ^ k`, the preferred one
first. -/
def neighbours (tie : Tie) (num den : Nat) (k : Int) : List Decimal :=
  let (n, d) := scale num den k
  let below := n / d
  let gap := 2 * (n % d)
  let upper := d < gap || (gap == d && (tie == .up || below % 2 == 1))
  if upper then [⟨below + 1, k⟩, ⟨below, k⟩] else [⟨below, k⟩, ⟨below + 1, k⟩]

/-- The exact decimal of a finite magnitude: a factor `2 ^ -1` is `5 · 10 ^ -1`. -/
def exact (bits : Nat) : Decimal :=
  match Binary64.exponent bits with
  | .ofNat e => ⟨Binary64.mantissa bits * Nat.pow 2 e, 0⟩
  | .negSucc e => ⟨Binary64.mantissa bits * Nat.pow 5 (e + 1), .negSucc e⟩

/-- The decimals to try for a finite magnitude, those with few digits first. -/
def candidates (tie : Tie) (bits : Nat) : List Decimal :=
  let (num, den) := Binary64.ratio bits
  let top := leadingPower num den
  (List.range 17).flatMap fun (i : Nat) => neighbours tie num den (top - i)

/-- The same number with no trailing zero in its coefficient, as far as the fuel goes. -/
def trimZeros : Nat → Decimal → Decimal
  | 0, d => d
  | fuel + 1, d =>
    if d.coefficient ≠ 0 ∧ d.coefficient % 10 = 0 then
      trimZeros fuel ⟨d.coefficient / 10, d.exponent + 1⟩
    else d

/-- The shortest decimal that reads back as the magnitude. -/
def shortest (tie : Tie) (bits : Nat) : Decimal :=
  if bits = 0 then ⟨0, 0⟩
  else
    match (candidates tie bits).find? fun d => d.nearestBits == bits with
    | some d => trimZeros 1 d
    | none => exact bits

end Decimal

end Specimen
