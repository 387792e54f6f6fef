import Specimen.Decimal.Layout

/-!
# Field types

What a field of a record may hold: an integer or a float from a range, a number of words or
sentences, or the address of a placeholder image. The conditions on ranges and sizes are part of the
types, so a field type that exists is one that values can be drawn for.
-/

namespace Specimen

/-- The integers from `min` to `max`, both included. -/
structure IntRange where
  min : Int64
  max : Int64
  min_le_max : min ≤ max
  deriving DecidableEq

/-- The floats from `min` up to `max`. -/
structure FloatRange where
  min : Float
  max : Float
  finite : min.isFinite ∧ max.isFinite
  min_le_max : min ≤ max
  deriving DecidableEq

/-- What a text is counted in. -/
inductive TextUnit where
  | words
  | sentences
  deriving DecidableEq, Repr

/-- The counts from `min` to `max`, both included. -/
structure CountRange where
  min : Nat
  max : Nat
  min_le_max : min ≤ max
  deriving DecidableEq, Repr

/-- How many units a text has. -/
inductive Amount where
  /-- Always this many. -/
  | fixed (count : Nat)
  /-- A count drawn from the range for each text. -/
  | range (counts : CountRange)
  deriving DecidableEq, Repr

/-- A text of an amount of words or sentences. -/
structure TextShape where
  unit : TextUnit
  amount : Amount
  deriving DecidableEq, Repr

/-- The width and height of an image, kept digit for digit: leading zeros count. -/
structure ImageSize where
  width : String
  height : String
  width_isNumeral : Numeral.isNumeral width.toList
  height_isNumeral : Numeral.isNumeral height.toList
  deriving DecidableEq

/-- The type of one field. -/
inductive FieldType where
  | integer (range : IntRange)
  | float (range : FloatRange)
  | text (shape : TextShape)
  | image (size : ImageSize)
  deriving DecidableEq

namespace IntRange

/-- The integers that a type string without options stands for: all that are not negative. -/
def nonNegative : IntRange :=
  ⟨0, Int64.maxValue, by decide⟩

end IntRange

namespace FloatRange

/-- The floats that a type string without options stands for: those from zero to one. -/
def unitInterval : FloatRange :=
  ⟨0, 1, by decide, by decide⟩

/-- Equality of the bounds as numbers, for which the two zeros are one. -/
instance : BEq FloatRange where
  beq a b := a.min == b.min && a.max == b.max

end FloatRange

namespace FieldType

/-- Equality of field types, with the bounds of floats compared as numbers. -/
instance : BEq FieldType where
  beq
    | integer a, integer b => a == b
    | float a, float b => a == b
    | text a, text b => decide (a = b)
    | image a, image b => decide (a = b)
    | _, _ => false

def kind : FieldType → String
  | integer _ => "int"
  | float _ => "float"
  | text _ => "text"
  | image _ => "image"

end FieldType

end Specimen
