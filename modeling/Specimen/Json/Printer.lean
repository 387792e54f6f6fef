import Specimen.Json.Number
import Specimen.Json.Text
import Specimen.ModelFile
import Specimen.Record

/-!
# Writing JSON

A record is a mapping of its names to its values, written on one line or, in a sequence of records,
indented by two spaces for each level. A float that is not finite is written as `null`. A model is
the mapping of its names to canonical type strings.
-/

namespace Specimen.Json

def floatText (x : Float) : List Char :=
  if x.isFinite then FloatLayout.json.text x else ['n', 'u', 'l', 'l']

/-- A value on one line. -/
def valueText : Value → List Char
  | .int n => Numeral.ofInt n.toInt
  | .float x => floatText x
  | .text s => quoted s

/-- A mapping of names to texts on one line. -/
def mappingText (members : List (String × List Char)) : List Char :=
  '\x7b' :: Text.joinWith [','] (members.map fun (name, text) => quoted name ++ ':' :: text) ++
    ['\x7d']

/-- A record on one line. -/
def recordText (r : Record) : List Char :=
  mappingText (r.toList.map fun (name, value) => (name, valueText value))

/-- The start of a line of a level. -/
def lineStart (level : Nat) : List Char :=
  '\n' :: List.replicate (2 * level) ' '

/-- Items between brackets, each on lines of its own; nothing between the brackets if there are
none. -/
def blockText (opening closing : Char) (level : Nat) : List (List Char) → List Char
  | [] => [opening, closing]
  | item :: items =>
    opening :: lineStart (level + 1) ++
      Text.joinWith (',' :: lineStart (level + 1)) (item :: items) ++
      lineStart level ++ [closing]

/-- A record over several lines. -/
def recordBlock (level : Nat) (r : Record) : List Char :=
  blockText '\x7b' '\x7d' level
    (r.toList.map fun (name, value) => quoted name ++ ':' :: ' ' :: valueText value)

/-- A sequence of records over several lines. -/
def recordsBlock (records : List Record) : List Char :=
  blockText '[' ']' 0 (records.map (recordBlock 1))

/-- A model on one line. -/
def modelText (m : Model) : List Char :=
  mappingText (m.declarations.map fun (name, typeString) => (name, quoted typeString))

def settingMember (name : String) (setting : Option UInt64) : List (String × List Char) :=
  (setting.map fun n => (name, Numeral.ofNat n.toNat)).toList

/-- A model file on one line. -/
def modelFileText (file : ModelFile) : List Char :=
  mappingText (settingMember "volume" file.volume ++ settingMember "seed" file.seed ++
    [("fields", modelText file.model)])

end Specimen.Json

namespace Specimen

def FieldType.toJson (type : FieldType) : String :=
  String.ofList (Json.quoted type.canonical)

def Model.toJson (m : Model) : String :=
  String.ofList (Json.modelText m)

def ModelFile.toJson (file : ModelFile) : String :=
  String.ofList (Json.modelFileText file)

def Value.toJson (v : Value) : String :=
  String.ofList (Json.valueText v)

def Record.toJson (r : Record) : String :=
  String.ofList (Json.recordText r)

end Specimen
