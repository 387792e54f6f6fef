/-!
# Random sources

A random source gives out words of 32 and of 64 bits and changes with each draw. Everything that is
generated is a function of the source, so the same source gives the same records.
-/

namespace Specimen

/-- A state from which random words are drawn. -/
class RandomSource (σ : Type) where
  /-- A word of 32 bits and the state after the draw. -/
  draw32 : σ → UInt32 × σ
  /-- A word of 64 bits and the state after the draw. -/
  draw64 : σ → UInt64 × σ

/-- A source that repeats given words for ever. A draw of 32 bits takes the low half of a word. -/
structure Script where
  words : List UInt64
  /-- The words left before the script starts again. -/
  pending : List UInt64

namespace Script

/-- The script at its beginning. -/
def ofWords (words : List UInt64) : Script :=
  ⟨words, words⟩

/-- The next word; a script without words gives zeros. -/
def next (s : Script) : UInt64 × Script :=
  match s.pending with
  | word :: rest => (word, { s with pending := rest })
  | [] =>
    match s.words with
    | word :: rest => (word, { s with pending := rest })
    | [] => (0, s)

instance : RandomSource Script where
  draw32 s := let (word, s) := s.next; (word.toUInt32, s)
  draw64 s := s.next

end Script

/-- A source together with the number of draws taken from it. -/
structure Counted (σ : Type) where
  source : σ
  draws : Nat

namespace Counted

/-- A source from which nothing is drawn yet. -/
def start {σ : Type} (source : σ) : Counted σ :=
  ⟨source, 0⟩

instance {σ : Type} [RandomSource σ] : RandomSource (Counted σ) where
  draw32 s := let (word, source) := RandomSource.draw32 s.source; (word, ⟨source, s.draws + 1⟩)
  draw64 s := let (word, source) := RandomSource.draw64 s.source; (word, ⟨source, s.draws + 1⟩)

end Counted

end Specimen
