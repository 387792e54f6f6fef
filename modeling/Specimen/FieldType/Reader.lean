import Specimen.Decimal.Literal
import Specimen.FieldType.Error

/-!
# Reading type strings

A type string is a code and, after the first colon, options:

| Code | Options            | Example     | Values                            |
|------|--------------------|-------------|-----------------------------------|
| `i`  | `<min>-<max>`      | `i:1-100`   | integers from `min` to `max`      |
| `f`  | `<min>-<max>`      | `f:0.5-2.5` | floats from `min` up to `max`     |
| `t`  | `<amount><unit>`   | `t:4-6w`    | words (`w`) or sentences (`s`)    |
| `p`  | `<width>*<height>` | `p:400*300` | the address of a placeholder image |
-/

namespace Specimen

/-- The largest number of words or sentences that a type string may ask for. -/
def maxTextAmount : Nat := 10000

namespace IntRange

/-- The largest bound that a type string may name. -/
def largestBound : Nat := 9223372036854775807

/-- A range of two numerals; no options at all stand for every non-negative integer. -/
def read : Option (List Char) → Except TypeError IntRange
  | none => .ok nonNegative
  | some options =>
    let bounds? := do
      let (min, max) ← Text.cut? '-' options
      let min ← Numeral.readUpTo? largestBound min
      let max ← Numeral.readUpTo? largestBound max
      some (min, max)
    match bounds? with
    | some (min, max) => ofBounds (Int64.ofNat min) (Int64.ofNat max)
    | none => .error (.invalidIntOptions (String.ofList options))

end IntRange

namespace FloatRange

/-- The texts before and after the first hyphen that is not the sign of an exponent. The flag says
whether the character before the text is an exponent mark. -/
def cutBounds? (afterMark : Bool) : List Char → Option (List Char × List Char)
  | [] => none
  | c :: cs =>
    if c = '-' ∧ afterMark = false then some ([], cs)
    else (cutBounds? (Decimal.isExponentMark c) cs).map fun (min, max) => (c :: min, max)

/-- A range of two decimal literals; no options at all stand for the unit interval. -/
def read : Option (List Char) → Except TypeError FloatRange
  | none => .ok unitInterval
  | some options =>
    let bounds? := do
      let (min, max) ← cutBounds? false options
      let min ← Decimal.read? min
      let max ← Decimal.read? max
      some (min.toFloat, max.toFloat)
    match bounds? with
    | some (min, max) => ofBounds min max
    | none => .error (.invalidFloatOptions (String.ofList options))

end FloatRange

namespace TextUnit

/-- The unit that a character stands for. -/
def ofCode? : Char → Option TextUnit
  | 'w' => some words
  | 's' => some sentences
  | _ => none

/-- The character that stands for a unit. -/
def code : TextUnit → Char
  | words => 'w'
  | sentences => 's'

end TextUnit

namespace TextShape

/-- The counts before the unit: one numeral, or two with a hyphen between them. -/
def readCounts? (amount : List Char) : Option (Nat × Option Nat) :=
  match Text.cut? '-' amount with
  | none => (Numeral.readUpTo? maxTextAmount amount).map (·, none)
  | some (min, max) => do
    let min ← Numeral.readUpTo? maxTextAmount min
    let max ← Numeral.readUpTo? maxTextAmount max
    some (min, some max)

/-- An amount followed by the character of its unit. The unit is checked first, then the form and
size of the counts, then their order. -/
def read (options : List Char) : Except TypeError TextShape :=
  match options.getLast? with
  | none => .error (.invalidTextUnit "")
  | some last =>
    match TextUnit.ofCode? last with
    | none => .error (.invalidTextUnit (String.ofList [last]))
    | some unit =>
      match readCounts? options.dropLast with
      | none => .error (.invalidTextOptions (String.ofList options))
      | some (count, none) => .ok ⟨unit, .fixed count⟩
      | some (min, some max) => do
        let counts ← CountRange.ofBounds min max
        .ok ⟨unit, .range counts⟩

end TextShape

namespace ImageSize

/-- Two numerals with an asterisk between them. -/
def read (options : List Char) : Except TypeError ImageSize :=
  match Text.cut? '*' options with
  | none => .error (.invalidImageOptions (String.ofList options))
  | some (width, height) => ofNumerals (String.ofList width) (String.ofList height)

end ImageSize

namespace FieldType

/-- The field type with a code and options, the options being what follows the first colon. -/
def ofCode (code : List Char) (options : Option (List Char)) : Except TypeError FieldType :=
  match code with
  | ['i'] => (IntRange.read options).map integer
  | ['f'] => (FloatRange.read options).map float
  | ['t'] => (TextShape.read (options.getD [])).map text
  | ['p'] => (ImageSize.read (options.getD [])).map image
  | _ => .error (.unsupportedCode (String.ofList code))

/-- The field type that a text denotes. -/
def read (cs : List Char) : Except TypeError FieldType :=
  match Text.cut? ':' cs with
  | none => ofCode cs none
  | some (code, options) => ofCode code (some options)

/-- The field type that a type string such as `t:4-6w` denotes. -/
def parse (typeString : String) : Except TypeError FieldType :=
  read typeString.toList

end FieldType

end Specimen
