import Specimen.Random.Range
import Specimen.Text.Cut
import Specimen.Text.UpperCase
import Specimen.WordPool

/-!
# Generated texts

Words are drawn from the pool with replacement and joined by single spaces. A sentence has 4 to 17
words, a capital first letter and a period. A text with a range of counts draws its count first.
-/

namespace Specimen.Generate

variable {σ : Type} [RandomSource σ]

/-- The results of drawing `n` times in a row. -/
def repeated {α : Type} (draw : σ → Except DrawError (α × σ)) :
    Nat → σ → Except DrawError (List α × σ)
  | 0, s => .ok ([], s)
  | n + 1, s => do
    let (a, s) ← draw s
    let (as, s) ← repeated draw n s
    .ok (a :: as, s)

/-- A word of the pool. -/
def word (s : σ) : Except DrawError (List Char × σ) := do
  let (i, s) ← Draw.index .bits32 WordPool.size s
  .ok ((WordPool.word i).toList, s)

/-- Words joined by single spaces. -/
def words (count : Nat) (s : σ) : Except DrawError (List Char × σ) := do
  let (ws, s) ← repeated word count s
  .ok (Text.joinWith [' '] ws, s)

/-- The numbers of words that a sentence may have. -/
def sentenceLengths : CountRange :=
  ⟨4, 17, by decide⟩

/-- Words with a capital first letter and a period. -/
def sentence (s : σ) : Except DrawError (List Char × σ) := do
  let (length, s) ← Draw.countBetween sentenceLengths.min sentenceLengths.max s
  let (text, s) ← words length s
  .ok (Text.capitalize text ++ ['.'], s)

/-- Sentences joined by single spaces. -/
def sentences (count : Nat) (s : σ) : Except DrawError (List Char × σ) := do
  let (ss, s) ← repeated sentence count s
  .ok (Text.joinWith [' '] ss, s)

/-- The fixed count, or one drawn from the range. -/
def amount (a : Amount) (s : σ) : Except DrawError (Nat × σ) :=
  match a with
  | .fixed count => .ok (count, s)
  | .range counts => Draw.countBetween counts.min counts.max s

def text (shape : TextShape) (s : σ) : Except DrawError (List Char × σ) := do
  let (count, s) ← amount shape.amount s
  match shape.unit with
  | .words => words count s
  | .sentences => sentences count s

end Specimen.Generate
