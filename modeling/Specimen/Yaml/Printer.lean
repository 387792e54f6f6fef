import Specimen.ModelFile
import Specimen.Record
import Specimen.Yaml.Plain

/-!
# Writing YAML

Mappings and sequences are written as blocks, each level indented by two columns, and in brackets
when they are empty. A string is written plain if it is then read back as the same string; otherwise
between single quotes, in a literal block if it has line ends, or between double quotes with
escapes.
-/

namespace Specimen

/-- The layout of floats in YAML. -/
def FloatLayout.yaml : FloatLayout where
  tie := .even
  positional := fun power => -5 ≤ power && power < 16
  wholeSuffix := ".0".toList
  exponentMark := ['e']
  notANumber := ".nan".toList
  infinity := ".inf".toList

namespace Yaml

/-! ## The style of a string -/

/-- Whether a character may be written as it is. -/
def isPrintable (c : Char) : Bool :=
  let n := c.toNat
  c == '\n' || (0x20 ≤ n && n ≤ 0x7E) ||
    (0xA0 ≤ n && n ≠ 0xFEFF && n ≠ 0xFFFE && n ≠ 0xFFFF)

/-- Whether a character with one property is followed by one with another somewhere. -/
def hasPair (p q : Char → Bool) : List Char → Bool
  | x :: y :: cs => (p x && q y) || hasPair p q (y :: cs)
  | _ => false

/-- Whether a character is a space or ends a line. -/
def isSpaceOrBreak (c : Char) : Bool :=
  c == ' ' || isBreak c

/-- Whether a character is a blank or ends a line. -/
def isBlankOrBreak (c : Char) : Bool :=
  isBlank c || isBreak c

/-- The characters that have a meaning of their own at the beginning of a scalar. -/
def leadingIndicators : List Char :=
  "#,[]\x7b\x7d&*!|>'\"%@".toList ++ ['\x60']

/-- Whether a text could be taken for something else than a plain scalar: by its beginning, by a
colon before a gap or by a number sign after one. -/
def hasIndicators (cs : List Char) : Bool :=
  let beginsSo := match cs with
    | [] => false
    | c :: rest => leadingIndicators.contains c || (("-?:".toList.contains c) && Cursor.isGap rest)
  beginsSo || cs.take 3 == ['-', '-', '-'] || cs.take 3 == ['.', '.', '.'] ||
    hasPair (· == ':') isBlankOrBreak cs || cs.getLast? == some ':' ||
    hasPair isBlankOrBreak (· == '#') cs

/-- Whether a text may be written plain. -/
def mayBePlain (cs : List Char) : Bool :=
  !hasIndicators cs && !cs.any isBreak && cs.all isPrintable && cs.head? != some ' ' &&
    cs.getLast? != some ' '

/-- Whether a text may be written between single quotes. -/
def mayBeSingleQuoted (cs : List Char) : Bool :=
  cs.all isPrintable && !hasPair isBreak (· == ' ') cs && !hasPair (· == ' ') isBreak cs

/-- Whether a text may be written in a literal block. -/
def mayBeLiteral (cs : List Char) : Bool :=
  cs.all isPrintable && !hasPair (· == ' ') isBreak cs && cs.getLast? != some ' '

/-- Whether a text without quotes would be read back as a string. -/
def readsAsString (cs : List Char) : Bool :=
  match plainFound cs with
  | .string _ => !isPaddedNumeral cs
  | _ => false

def styleOf (cs : List Char) : ScalarStyle :=
  if cs.contains '\n' then
    if mayBeLiteral cs then .literal else .doubleQuoted
  else if readsAsString cs && mayBePlain cs then .plain
  else if mayBeSingleQuoted cs then .singleQuoted
  else .doubleQuoted

/-! ## Scalars -/

/-- Spaces up to a column. -/
def spaces (column : Nat) : List Char :=
  List.replicate column ' '

/-- The characters between single quotes. A line begins at a column. -/
def singleQuotedText (column : Nat) (wasBreak : Bool) : List Char → List Char
  | [] => if wasBreak then spaces column else []
  | c :: cs =>
    if isBreak c then c :: singleQuotedText column true cs
    else
      (if wasBreak then spaces column else []) ++ (if c = '\'' then ['\'', '\''] else [c]) ++
        singleQuotedText column false cs

/-- The letters that stand for characters after a backslash. -/
def writtenEscapes : List (Char × Char) :=
  [('\x00', '0'), ('\x07', 'a'), ('\x08', 'b'), ('\t', 't'), ('\n', 'n'), ('\x0b', 'v'),
    ('\x0c', 'f'), ('\r', 'r'), ('\x1b', 'e'), ('"', '"'), ('\\', '\\'), ('\x85', 'N'),
    ('\u2028', 'L'), ('\u2029', 'P')]

/-- The last hexadecimal digits of a number. -/
def hexDigits : Nat → Nat → List Char
  | 0, _ => []
  | count + 1, n => hexDigits count (n / 16) ++ [(Nat.digitChar (n % 16)).toUpper]

/-- A character between double quotes. -/
def doubleQuotedChar (c : Char) : List Char :=
  match writtenEscapes.lookup c with
  | some letter => ['\\', letter]
  | none =>
    if isPrintable c then [c]
    else if c.toNat ≤ 0xFF then '\\' :: 'x' :: hexDigits 2 c.toNat
    else if c.toNat ≤ 0xFFFF then '\\' :: 'u' :: hexDigits 4 c.toNat
    else '\\' :: 'U' :: hexDigits 8 c.toNat

/-- The lines of a literal block. Each that is not empty begins at a column. -/
def literalLines (column : Nat) (wasBreak : Bool) : List Char → List Char
  | [] => []
  | c :: cs =>
    if isBreak c then c :: literalLines column true cs
    else (if wasBreak then spaces column else []) ++ c :: literalLines column false cs

/-- What is written after the indicator of a literal block: the indentation, if the first line does
not show it, and what becomes of the line ends at the end. -/
def literalHints (cs : List Char) : List Char :=
  let indentation := if cs.head?.any isSpaceOrBreak then ['2'] else []
  let chomping := match cs.reverse with
    | [] => ['-']
    | [c] => if isBreak c then ['+'] else ['-']
    | c :: d :: _ => if !isBreak c then ['-'] else if isBreak d then ['+'] else []
  indentation ++ chomping

/-- A string, of which the lines after the first begin at a column. -/
def stringText (column : Nat) (s : String) : List Char :=
  let cs := s.toList
  match styleOf cs with
  | .singleQuoted => '\'' :: singleQuotedText column false cs ++ ['\'']
  | .doubleQuoted => '"' :: cs.flatMap doubleQuotedChar ++ ['"']
  | .literal => '|' :: literalHints cs ++ '\n' :: literalLines column true cs
  | _ => cs

/-- A value, of which the lines after the first begin at a column. -/
def valueText (column : Nat) : Value → List Char
  | .int n => Numeral.ofInt n.toInt
  | .float x => FloatLayout.yaml.text x
  | .text s => stringText column s

/-! ## Blocks -/

/-- With the last line ended. -/
def endLine (cs : List Char) : List Char :=
  if cs.getLast?.any isBreak then cs else cs ++ ['\n']

/-- The longest key, in bytes, that stands on a line with its value. -/
def longestSimpleKey : Nat := 128

/-- Whether a key stands on a line with its value and needs no question mark. -/
def isSimpleKey (s : String) : Bool :=
  !s.toList.any isBreak && s.utf8ByteSize ≤ longestSimpleKey

/-- A key of a mapping at a column, with the colon after it. -/
def keyText (column : Nat) (s : String) : List Char :=
  if isSimpleKey s then stringText (column + 2) s ++ [':']
  else '?' :: ' ' :: endLine (stringText (column + 2) s) ++ spaces column ++ [':']

/-- Scalars with their keys, as lines of a mapping at a column. -/
def membersText (column : Nat) (members : List (String × (Nat → List Char))) : List Char :=
  members.flatMap fun (name, value) =>
    spaces column ++ endLine (keyText column name ++ ' ' :: value (column + 2))

def mappingText (members : List (String × (Nat → List Char))) : List Char :=
  if members.isEmpty then "\x7b\x7d\n".toList else membersText 0 members

def recordMembers (r : Record) : List (String × (Nat → List Char)) :=
  r.toList.map fun (name, value) => (name, (valueText · value))

def itemText (r : Record) : List Char :=
  '-' :: ' ' ::
    if r.isEmpty then "\x7b\x7d\n".toList else (membersText 2 (recordMembers r)).drop 2

def recordsText (records : List Record) : List Char :=
  if records.isEmpty then "[]\n".toList else records.flatMap itemText

/-- The fields of a model with their type strings. -/
def modelMembers (m : Model) : List (String × (Nat → List Char)) :=
  m.declarations.map fun (name, typeString) => (name, (stringText · typeString))

def settingMember (name : String) (setting : Option UInt64) :
    List (String × (Nat → List Char)) :=
  (setting.map fun n => (name, fun _ => Numeral.ofNat n.toNat)).toList

def modelFileText (file : ModelFile) : List Char :=
  membersText 0 (settingMember "volume" file.volume ++ settingMember "seed" file.seed) ++
    "fields:".toList ++
    if file.model.isEmpty then " \x7b\x7d\n".toList
    else '\n' :: membersText 2 (modelMembers file.model)

end Yaml

def FieldType.toYaml (type : FieldType) : String :=
  String.ofList (Yaml.endLine (Yaml.stringText 2 type.canonical))

def Model.toYaml (m : Model) : String :=
  String.ofList (Yaml.mappingText (Yaml.modelMembers m))

def ModelFile.toYaml (file : ModelFile) : String :=
  String.ofList (Yaml.modelFileText file)

def Value.toYaml (v : Value) : String :=
  String.ofList (Yaml.endLine (Yaml.valueText 2 v))

def Record.toYaml (r : Record) : String :=
  String.ofList (Yaml.mappingText (Yaml.recordMembers r))

end Specimen
