import Specimen.FieldType.Basic

/-!
# Why a type string is refused

Each cause carries the text that its message quotes: the code, the options or the range.
-/

namespace Specimen

/-- The causes for which a type string denotes no field type. -/
inductive TypeError where
  /-- The code is none of `i`, `f`, `t`, `p`. -/
  | unsupportedCode (code : String)
  | invalidIntOptions (options : String)
  | invalidFloatOptions (options : String)
  /-- The last character of the options is no unit; empty if there are no options. -/
  | invalidTextUnit (unit : String)
  | invalidTextOptions (options : String)
  | invalidImageOptions (options : String)
  /-- A range is well formed and its least value exceeds its greatest. -/
  | invertedRange (range : String)
  deriving DecidableEq, Repr

namespace TypeError

def message : TypeError → String
  | unsupportedCode code =>
    "Type '" ++ code ++ "' not supported in model declaration, expected one of i, f, t, p"
  | invalidIntOptions options =>
    "Options '" ++ options ++ "' for integer type are invalid, min-max expected"
  | invalidFloatOptions options =>
    "Options '" ++ options ++ "' for float type are invalid, min-max expected"
  | invalidTextUnit unit =>
    "Unit '" ++ unit ++ "' is invalid for text length, use s(entences) or w(ords)"
  | invalidTextOptions options =>
    "Options '" ++ options ++ "' for text type are invalid, range or fixed number expected"
  | invalidImageOptions options =>
    "Options '" ++ options ++ "' for image type are invalid, width*height expected"
  | invertedRange range =>
    "Range '" ++ range ++ "' is inverted, min must not exceed max"

end TypeError

/-- Two numbers as the text of a range. -/
def rangeText (min max : List Char) : List Char :=
  min ++ '-' :: max

namespace IntRange

def boundsText (min max : Int64) : List Char :=
  rangeText (Numeral.ofInt min.toInt) (Numeral.ofInt max.toInt)

/-- The range with these bounds, refused if they are inverted. -/
def ofBounds (min max : Int64) : Except TypeError IntRange :=
  if h : min ≤ max then .ok ⟨min, max, h⟩
  else .error (.invertedRange (String.ofList (boundsText min max)))

end IntRange

namespace FloatRange

def boundsText (min max : Float) : List Char :=
  rangeText (displayFloat min) (displayFloat max)

/-- The range with these bounds, refused if one is not finite or if they are inverted. -/
def ofBounds (min max : Float) : Except TypeError FloatRange :=
  if hf : min.isFinite ∧ max.isFinite then
    if h : min ≤ max then .ok ⟨min, max, hf, h⟩
    else .error (.invertedRange (String.ofList (boundsText min max)))
  else .error (.invalidFloatOptions (String.ofList (boundsText min max)))

end FloatRange

namespace CountRange

def boundsText (min max : Nat) : List Char :=
  rangeText (Numeral.ofNat min) (Numeral.ofNat max)

/-- The range with these bounds, refused if they are inverted. -/
def ofBounds (min max : Nat) : Except TypeError CountRange :=
  if h : min ≤ max then .ok ⟨min, max, h⟩
  else .error (.invertedRange (String.ofList (boundsText min max)))

end CountRange

namespace ImageSize

/-- The size with this width and height, refused unless both are numerals. -/
def ofNumerals (width height : String) : Except TypeError ImageSize :=
  if h : Numeral.isNumeral width.toList ∧ Numeral.isNumeral height.toList then
    .ok ⟨width, height, h.1, h.2⟩
  else .error (.invalidImageOptions (width ++ "*" ++ height))

end ImageSize

end Specimen
