import Specimen.Model
import Specimen.Text.Quoted

/-!
# Why a well-formed document is refused

A document in JSON or YAML may be well formed and still not say what is expected of it. The causes
are common to both formats; the two differ in how they name what they found.

A message says the cause alone. The place at which a reader met it, shown behind the message as
` at line L column C`, is left out here: neither tokens nor parts of a document say where they
stand.
-/

namespace Specimen

/-- What stands in a document in place of something expected. -/
inductive Found where
  | null
  | boolean (b : Bool)
  | integer (n : Int)
  /-- An integer of more than 64 bits. -/
  | wideInteger (n : Int)
  | float (x : Float)
  | string (s : String)
  | sequence
  | mapping
  deriving DecidableEq

/-- The causes for which a well-formed document is refused. -/
inductive DecodeError where
  | wrongType (found : Found) (expected : String)
  | wrongValue (found : Found) (expected : String)
  | wrongLength (length : Nat) (expected : String)
  | missingField (name : String)
  | duplicateField (name : String)
  /-- The document ends before it says anything. -/
  | noContent
  /-- A value that is neither a number nor a string. -/
  | noValueKind
  | type (cause : TypeError)
  | model (cause : ModelError)
  deriving DecidableEq

/-- How a document format names what it holds. -/
structure FoundNames where
  null : String
  float : FloatLayout

namespace Found

/-- The name of what was found. -/
def describe (names : FoundNames) : Found → String
  | null => names.null
  | boolean b => "boolean `" ++ (if b then "true" else "false") ++ "`"
  | integer n => "integer `" ++ String.ofList (Numeral.ofInt n) ++ "`"
  | wideInteger n =>
    "integer `" ++ String.ofList (Numeral.ofInt n) ++ "` as " ++ (if n < 0 then "i128" else "u128")
  | float x => "floating point `" ++ String.ofList (names.float.text x) ++ "`"
  | string s => "string " ++ Text.quoted s
  | sequence => "sequence"
  | mapping => "map"

end Found

namespace DecodeError

/-- The message of a cause, without the ` at line L column C` that a reader shows behind it. -/
def message (names : FoundNames) : DecodeError → String
  | wrongType found expected =>
    "invalid type: " ++ found.describe names ++ ", expected " ++ expected
  | wrongValue found expected =>
    "invalid value: " ++ found.describe names ++ ", expected " ++ expected
  | wrongLength length expected =>
    "invalid length " ++ String.ofList (Numeral.ofNat length) ++ ", expected " ++ expected
  | missingField name => "missing field `" ++ name ++ "`"
  | duplicateField name => "duplicate field `" ++ name ++ "`"
  | noContent => "EOF while parsing a value"
  | noValueKind => "data did not match any variant of untagged enum Value"
  | type cause => cause.message
  | model cause => String.intercalate ": " cause.messages

end DecodeError

/-! ## What is expected -/

namespace Expected

/-- A type string or the name of a field. -/
def string : String := "a string"

/-- The fields of a model. -/
def model : String := "a mapping of field names to type strings"

/-- A record. -/
def record : String := "a map"

/-- A model file. -/
def modelFile : String := "struct ModelFile"

/-- A model file written as a sequence. -/
def modelFileSequence : String := "struct ModelFile with 3 elements"

/-- The name of a setting of a model file. -/
def setting : String := "field identifier"

/-- The number of records of a batch. -/
def volume : String := "usize"

/-- The seed of a random source. -/
def seed : String := "u64"

end Expected

end Specimen
