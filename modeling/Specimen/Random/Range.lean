import Specimen.FieldType.Basic
import Specimen.Random.Source

/-!
# Drawing from a range

An integer below a size is drawn by scaling: a word times the size, divided by the number of words.
If the part that is cut off is large, a second word decides whether it carries into the result,
which makes the bias negligible. A float is drawn by scaling a fraction of 52 bits. Every draw looks
at its range first: from an empty one nothing is drawn.
-/

namespace Specimen

/-- Why no value can be drawn from a range. -/
inductive DrawError where
  /-- The least value exceeds the greatest. -/
  | emptyRange
  /-- A bound or the distance between the bounds is not finite. -/
  | unboundedRange
  deriving DecidableEq, Repr

/-- The width of the words that an integer is drawn with. -/
inductive WordWidth where
  | bits32
  | bits64
  deriving DecidableEq, Repr

namespace WordWidth

/-- The number of words of a width. -/
def count : WordWidth → Nat
  | bits32 => UInt32.size
  | bits64 => UInt64.size

end WordWidth

namespace Draw

variable {σ : Type} [RandomSource σ]

/-- A word of a width as a number. -/
def word (width : WordWidth) (s : σ) : Nat × σ :=
  match width with
  | .bits32 => let (x, s) := RandomSource.draw32 s; (x.toNat, s)
  | .bits64 => let (x, s) := RandomSource.draw64 s; (x.toNat, s)

/-- A number below `size`. The second word is drawn only if the part cut off from the first leaves
room for a carry. -/
def below (width : WordWidth) (size : Nat) (s : σ) : Nat × σ :=
  let (first, s) := word width s
  let scaled := first * size / width.count
  let cutOff := first * size % width.count
  if width.count - size < cutOff then
    let (second, s) := word width s
    let carry := if width.count ≤ cutOff + second * size / width.count then 1 else 0
    (scaled + carry, s)
  else (scaled, s)

theorem word_lt_count (width : WordWidth) (s : σ) : (word width s).1 < width.count := by
  cases width
  · exact UInt32.toNat_lt _
  · exact UInt64.toNat_lt _

/-- Scaling stays below the size, and so does the carry: it needs a part cut off that the greatest
multiple below the size does not leave. -/
theorem below_lt (width : WordWidth) {size : Nat} (h : 0 < size) (s : σ) :
    (below width size s).1 < size := by
  have hfirst := word_lt_count width s
  have hcount : 0 < width.count := by cases width <;> decide
  have hle : (word width s).1 * size + size ≤ width.count * size := by
    rw [← Nat.succ_mul]
    exact Nat.mul_le_mul_right _ hfirst
  have hsplit := Nat.div_add_mod ((word width s).1 * size) width.count
  have hscaled : (word width s).1 * size / width.count < size := by
    rw [Nat.div_lt_iff_lt_mul hcount, Nat.mul_comm size]
    omega
  unfold below
  simp only
  split
  · rename_i hcut
    have hsecond := word_lt_count width (word width s).2
    have hpart : (word width (word width s).2).1 * size / width.count < size := by
      rw [Nat.div_lt_iff_lt_mul hcount, Nat.mul_comm size]
      exact Nat.mul_lt_mul_of_pos_right hsecond h
    by_cases hlast : (word width s).1 * size / width.count = size - 1
    · have : width.count * (size - 1) + width.count = width.count * size := by
        rw [← Nat.mul_succ, Nat.succ_eq_add_one, Nat.sub_add_cancel h]
      rw [hlast] at hsplit
      omega
    · split <;> omega
  · exact hscaled

/-- A number below `size`, if there is one. -/
def index (width : WordWidth) (size : Nat) (s : σ) : Except DrawError (Fin size × σ) :=
  if h : 0 < size then
    let drawn := below width size s
    .ok (⟨drawn.1, below_lt width h s⟩, drawn.2)
  else .error .emptyRange

/-- An integer of a range, drawn with words of 64 bits. If every integer of 64 bits is in the range,
the word itself is the result. -/
def integer (range : IntRange) (s : σ) : Int64 × σ :=
  let size := (range.max.toInt - range.min.toInt + 1).toNat
  if size = UInt64.size then
    let (x, s) := RandomSource.draw64 s
    (x.toInt64, s)
  else
    let (k, s) := below .bits64 size s
    (Int64.ofInt (range.min.toInt + k), s)

/-- An integer between two bounds, if they are in order. -/
def integerBetween (min max : Int64) (s : σ) : Except DrawError (Int64 × σ) :=
  if h : min ≤ max then .ok (integer ⟨min, max, h⟩ s) else .error .emptyRange

/-- The width of the words that a count up to `max` is drawn with. -/
def countWidth (max : Nat) : WordWidth :=
  if max < UInt32.size then .bits32 else .bits64

/-- A count of a range. -/
def count (counts : CountRange) (s : σ) : Nat × σ :=
  let (k, s) := below (countWidth counts.max) (counts.max - counts.min + 1) s
  (counts.min + k, s)

/-- A count between two bounds, if they are in order. -/
def countBetween (min max : Nat) (s : σ) : Except DrawError (Nat × σ) :=
  if h : min ≤ max then .ok (count ⟨min, max, h⟩ s) else .error .emptyRange

/-- The fraction of 52 bits that the top bits of a word stand for. -/
def fraction (x : UInt64) : Float :=
  (x >>> 12).toFloat / 4503599627370496

/-- A float from `min` up to `max`: a fraction of their distance, added to `min`. If `min` is not
below `max` the result is `min` and nothing is drawn. -/
def float (min max : Float) (s : σ) : Except DrawError (Float × σ) :=
  if max ≤ min then .ok (min, s)
  else if min.isFinite && max.isFinite && (max - min).isFinite then
    let (x, s) := RandomSource.draw64 s
    .ok (fraction x * (max - min) + min, s)
  else .error .unboundedRange

end Draw

end Specimen
