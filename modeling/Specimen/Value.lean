import Specimen.Decimal.Layout

/-!
# Values

The value of one field of a record: an integer, a float or a text.
-/

namespace Specimen

/-- A generated value. -/
inductive Value where
  | int (n : Int64)
  | float (x : Float)
  /-- Words, sentences or the address of an image. -/
  | text (s : String)
  deriving DecidableEq

namespace Value

/-- Equality of values of one kind, with floats compared as numbers: a value that is not a number
differs from itself, and an integer differs from every float. -/
instance : BEq Value where
  beq
    | int a, int b => decide (a = b)
    | float a, float b => a == b
    | text a, text b => decide (a = b)
    | _, _ => false

def kind : Value → String
  | int _ => "int"
  | float _ => "float"
  | text _ => "text"

def asInt? : Value → Option Int64
  | int n => some n
  | _ => none

/-- The float, or the float nearest to the integer. -/
def asFloat? : Value → Option Float
  | float x => some x
  | int n => some (Binary64.ofInt n.toInt)
  | text _ => none

def asText? : Value → Option String
  | text s => some s
  | _ => none

def display : Value → String
  | int n => String.ofList (Numeral.ofInt n.toInt)
  | float x => String.ofList (displayFloat x)
  | text s => s

end Value

end Specimen
