import Specimen.Random.Source

/-!
# The ChaCha stream as a random source

The stream cipher ChaCha with twelve rounds, read as a sequence of words of 32 bits. The key comes
from a seed of 64 bits or from eight words; the block counter starts at zero and the nonce is zero.
A draw of 32 bits takes one word, a draw of 64 bits two, the low half first.
-/

namespace Specimen

namespace ChaCha

/-- A word with its bits rotated to the left. -/
def rotateLeft (x : UInt32) (n : UInt32) : UInt32 :=
  (x <<< n) ||| (x >>> (32 - n))

/-- The sixteen words of a block in the making. -/
abbrev Block := Vector UInt32 16

/-- The quarter round on four positions of the block. -/
def quarterRound (v : Block) (a b c d : Fin 16) : Block :=
  let v := v.set a (v[a] + v[b])
  let v := v.set d (rotateLeft (v[d] ^^^ v[a]) 16)
  let v := v.set c (v[c] + v[d])
  let v := v.set b (rotateLeft (v[b] ^^^ v[c]) 12)
  let v := v.set a (v[a] + v[b])
  let v := v.set d (rotateLeft (v[d] ^^^ v[a]) 8)
  let v := v.set c (v[c] + v[d])
  v.set b (rotateLeft (v[b] ^^^ v[c]) 7)

/-- A round on the columns of the block and one on its diagonals. -/
def doubleRound (v : Block) : Block :=
  let v := quarterRound v 0 4 8 12
  let v := quarterRound v 1 5 9 13
  let v := quarterRound v 2 6 10 14
  let v := quarterRound v 3 7 11 15
  let v := quarterRound v 0 5 10 15
  let v := quarterRound v 1 6 11 12
  let v := quarterRound v 2 7 8 13
  quarterRound v 3 4 9 14

/-- Double rounds, one after the other. -/
def doubleRounds : Nat → Block → Block
  | 0, v => v
  | n + 1, v => doubleRounds n (doubleRound v)

/-- The block before its rounds: the constants, the key, the counter and a nonce of zeros. -/
def initialBlock (key : Vector UInt32 8) (counter : UInt64) : Block :=
  #v[0x61707865, 0x3320646E, 0x79622D32, 0x6B206574,
    key[0], key[1], key[2], key[3], key[4], key[5], key[6], key[7],
    counter.toUInt32, (counter >>> 32).toUInt32, 0, 0]

/-- The words of one block of the stream. -/
def block (key : Vector UInt32 8) (counter : UInt64) : Block :=
  let start := initialBlock key counter
  (doubleRounds 6 start).zipWith (· + ·) start

end ChaCha

/-- A position in a ChaCha stream. -/
structure ChaCha where
  key : Vector UInt32 8
  /-- The number of the next block. -/
  counter : UInt64
  /-- The words of the current block that are not drawn yet. -/
  pending : List UInt32

namespace ChaCha

def ofKey (key : Vector UInt32 8) : ChaCha :=
  ⟨key, 0, []⟩

/-- The next word of the stream. -/
def next (s : ChaCha) : UInt32 × ChaCha :=
  match s.pending with
  | word :: rest => (word, { s with pending := rest })
  | [] =>
    let words := block s.key s.counter
    (words[0], { s with counter := s.counter + 1, pending := words.toList.tail })

/-- One step of the linear congruential generator that spreads a seed. -/
def seedStep (s : UInt64) : UInt64 :=
  s * 6364136223846793005 + 11634580027462260723

/-- The key word that a state of the seed generator gives: shifted, folded to 32 bits and rotated by
its top bits. -/
def seedWord (s : UInt64) : UInt32 :=
  let folded := (((s >>> 18) ^^^ s) >>> 27).toUInt32
  let turn := (s >>> 59).toUInt32
  (folded >>> turn) ||| (folded <<< ((32 - turn) % 32))

/-- The key words of the next states of the seed generator. -/
def seedWords : Nat → UInt64 → List UInt32
  | 0, _ => []
  | n + 1, s => seedWord (seedStep s) :: seedWords n (seedStep s)

@[simp]
theorem length_seedWords (n : Nat) (s : UInt64) : (seedWords n s).length = n := by
  induction n generalizing s with
  | zero => rfl
  | succ n ih => simp [seedWords, ih]

def ofSeed (seed : UInt64) : ChaCha :=
  ofKey ⟨(seedWords 8 seed).toArray, by simp⟩

instance : RandomSource ChaCha where
  draw32 s := s.next
  draw64 s :=
    let (low, s) := s.next
    let (high, s) := s.next
    ((high.toUInt64 <<< 32) ||| low.toUInt64, s)

end ChaCha

end Specimen
