import Specimen.Decimal.Literal
import Specimen.Decode.Error
import Specimen.Yaml.Event

/-!
# What YAML scalars say

A plain scalar is null, a boolean, a number or a string by its form alone; a scalar between quotes
or in a block is a string. A tag of the format demands a certain form.
-/

namespace Specimen.Yaml

/-- Whether a plain scalar stands for null, besides the empty one. -/
def isNull (cs : List Char) : Bool :=
  ["null", "Null", "NULL", "~"].any (·.toList == cs)

/-- The truth value that a plain scalar stands for. -/
def boolean? (cs : List Char) : Option Bool :=
  if ["true", "True", "TRUE"].any (·.toList == cs) then some true
  else if ["false", "False", "FALSE"].any (·.toList == cs) then some false
  else none

/-- Whether a text is all digits with a needless zero in front, after a sign or none. Such a text is
no number. -/
def isPaddedNumeral (cs : List Char) : Bool :=
  let digits := match cs with
    | '-' :: digits => digits
    | '+' :: digits => digits
    | digits => digits
  match digits with
  | '0' :: others => Numeral.isNumeral others
  | _ => false

/-- The number of digits in a base of 16 at most. -/
def numberInBase? (base : Nat) (digits : List Char) : Option Nat :=
  if digits = [] then none
  else
    digits.foldlM (fun n x => do
      let k ← hexValue? x
      if k < base then some (n * base + k) else none) 0

/-- The number of digits that may announce their base. -/
def natural? : List Char → Option Nat
  | '0' :: 'x' :: digits => numberInBase? 16 digits
  | '0' :: 'o' :: digits => numberInBase? 8 digits
  | '0' :: 'b' :: digits => numberInBase? 2 digits
  | digits => if isPaddedNumeral digits then none else numberInBase? 10 digits

/-- The integer that a plain scalar stands for. -/
def integer? : List Char → Option Int
  | '-' :: cs => (natural? cs).map fun n => -(n : Int)
  | '+' :: cs => (natural? cs).map Int.ofNat
  | cs => (natural? cs).map Int.ofNat

/-- The unsigned number of 64 bits that a plain scalar stands for. -/
def word? (cs : List Char) : Option UInt64 :=
  match cs with
  | '-' :: _ => none
  | _ =>
    match integer? cs with
    | some (.ofNat n) => if n < UInt64.size then some (UInt64.ofNat n) else none
    | _ => none

/-- How an integer is found: as one of 64 bits, with or without sign, or as one of 128 bits. -/
def foundInteger? (n : Int) : Option Found :=
  if -0x8000000000000000 ≤ n ∧ n < 0x10000000000000000 then some (.integer n)
  else if -0x80000000000000000000000000000000 ≤ n ∧ n < 0x100000000000000000000000000000000 then
    some (.wideInteger n)
  else none

/-- Whether a text is one of three spellings of a name after a point. -/
def isPointName (spellings : List String) : List Char → Bool
  | '.' :: cs => spellings.any (·.toList == cs)
  | _ => false

/-- The float that a decimal literal stands for, if it is not beyond every float. -/
def finiteFloat? (cs : List Char) : Option Float :=
  (Decimal.readFloat? cs).filter (·.isFinite)

/-- The float that a plain scalar stands for. -/
def float? (cs : List Char) : Option Float :=
  let isInfinity := isPointName ["inf", "Inf", "INF"]
  match cs with
  | '+' :: cs =>
    if isInfinity cs then some (Binary64.ofMagnitude Binary64.infinityBits)
    else
      match cs with
      | '+' :: _ => none
      | '-' :: _ => none
      | cs => finiteFloat? cs
  | cs =>
    if isInfinity cs then some (Binary64.ofMagnitude Binary64.infinityBits)
    else if isPointName ["nan", "NaN", "NAN"] cs then some (0 / 0)
    else
      match cs with
      | '-' :: magnitude =>
        if isInfinity magnitude then some (-Binary64.ofMagnitude Binary64.infinityBits)
        else finiteFloat? cs
      | cs => finiteFloat? cs

/-- What a plain scalar stands for. -/
def plainFound (cs : List Char) : Found :=
  if cs = [] ∨ isNull cs then .null
  else
    match boolean? cs with
    | some b => .boolean b
    | none =>
      match (integer? cs).bind foundInteger? with
      | some found => found
      | none =>
        match if isPaddedNumeral cs then none else float? cs with
        | some x => .float x
        | none => .string (String.ofList cs)

/-- The tag of the format for a kind of scalar. -/
def formatTag (kind : String) : List Char :=
  ("tag:yaml.org,2002:" ++ kind).toList

namespace Scalar

def string (s : Scalar) : String :=
  String.ofList s.text

/-- What a scalar stands for, or the kind of scalar that its tag demands in vain. -/
def found (s : Scalar) : Except String Found :=
  let plain := if s.style = .plain then plainFound s.text else .string s.string
  let demand (what : String) : Option Found → Except String Found
    | some found => .ok found
    | none => .error what
  match s.tag with
  | none => .ok plain
  | some tag =>
    if tag = formatTag "bool" then demand "a boolean" ((boolean? s.text).map .boolean)
    else if tag = formatTag "int" then demand "an integer" ((integer? s.text).bind foundInteger?)
    else if tag = formatTag "float" then demand "a float" ((float? s.text).map .float)
    else if tag = formatTag "null" then
      demand "null" (if isNull s.text then some .null else none)
    else .ok (if tag.head? = some '!' then plain else .string s.string)

/-- The error for a scalar in place of something else. -/
def mismatch (s : Scalar) (expected : String) : DecodeError :=
  match s.found with
  | .ok found => .wrongType found expected
  | .error kind => .wrongValue (.string s.string) kind

end Scalar

end Specimen.Yaml
