import Specimen.ModelFile
import Specimen.Yaml.Document
import Specimen.Yaml.Plain

/-!
# Reading YAML

Type strings, models and model files are read off the parts of a document from left to right. The
first thing that is wrong decides: a value that is not what is expected where it stands, or the
fault at which the parts end. Every scalar will do for a string.
-/

namespace Specimen.Yaml

/-- Why a text is refused. -/
inductive Error where
  /-- The text is no single YAML document. -/
  | malformed
  /-- What is wrong inside of the mappings to which the keys lead, the outermost first. -/
  | data (path : List String) (cause : DecodeError)
  deriving DecidableEq

/-- How YAML names floats: positionally, with a fraction for all that are finite. -/
def foundFloat : FloatLayout :=
  { FloatLayout.display with wholeSuffix := ".0".toList }

/-- How YAML names what it holds. -/
def foundNames : FoundNames :=
  ⟨"unit value", foundFloat⟩

/-- The keys to a place as they are shown; a point stands for the whole document. -/
def pathText (path : List String) : String :=
  if path = [] then "." else String.intercalate "." path

/-- The message shown for a cause and the keys to the place where it is found, without the
` at line L column C` behind them. -/
def dataMessage (path : List String) (cause : DecodeError) : String :=
  if pathText path = "." then cause.message foundNames
  else pathText path ++ ": " ++ cause.message foundNames

def Error.message : Error → String
  | malformed => "the text is not well-formed"
  | data path cause => dataMessage path cause

/-- The parts from a node on, those of the node referred to for a reference, and the parts after a
reference. -/
def resolve (d : Document) : List Part → List Part × Option (List Part)
  | .reference number :: ps => (d.partsAt number, some ps)
  | ps => (ps, none)

/-- The error for a part in place of something else. -/
def mismatch (path : List String) (expected : String) : Part → Error
  | .scalar s => .data path (s.mismatch expected)
  | .sequenceStart => .data path (.wrongType .sequence expected)
  | .mappingStart => .data path (.wrongType .mapping expected)
  | .nothing => .data [] .noContent
  | _ => .malformed

def readString (d : Document) (path : List String) (expected : String) (ps : List Part) :
    Except Error (String × List Part) :=
  match resolve d ps with
  | (.scalar s :: rest, after) => .ok (s.string, after.getD rest)
  | (p :: _, _) => .error (mismatch path expected p)
  | ([], _) => .error .malformed

def readFieldType (d : Document) (ps : List Part) : Except Error (FieldType × List Part) := do
  let (typeString, ps) ← readString d [] Expected.string ps
  match FieldType.parse typeString with
  | .ok type => .ok (type, ps)
  | .error cause => .error (.data [] (.type cause))

/-- The last key of the path to a value, shown by the part that the key is; that of a reference is
not shown. -/
def keyName : Part → String
  | .scalar s => s.string
  | _ => "?"

/-- The members of a mapping of strings up to its end. -/
def readStrings (d : Document) (path : List String) :
    Nat → List Part → Except Error (List (String × String) × List Part)
  | _, .mappingEnd :: ps => .ok ([], ps)
  | fuel + 1, p :: ps => do
    let (name, ps) ← readString d path Expected.string (p :: ps)
    let (value, ps) ← readString d (path ++ [keyName p]) Expected.string ps
    let (members, ps) ← readStrings d path fuel ps
    .ok ((name, value) :: members, ps)
  | _, _ => .error .malformed

/-- Whether a part is a mapping without members that is not written as one: nothing at all or an
empty plain scalar. -/
def isEmptyMapping : Part → Bool
  | .nothing => true
  | .scalar s => s.text.isEmpty && s.style == .plain
  | _ => false

/-- A model. All members are read before any type string is looked at. -/
def readModel (d : Document) (path : List String) (ps : List Part) :
    Except Error (Model × List Part) :=
  match resolve d ps with
  | ([], _) => .error .malformed
  | (p :: rest, after) => do
    let (declarations, rest) ←
      if p == .mappingStart then readStrings d path (rest.length + 1) rest
      else if isEmptyMapping p then .ok ([], rest)
      else .error (mismatch path Expected.model p)
    match Model.parse declarations with
    | .ok model => .ok (model, after.getD rest)
    | .error cause => .error (.data path (.model cause))

/-- The parts after a node of which `opened` collections are open. -/
def skipFrom : Nat → List Part → Option (List Part)
  | _, [] => none
  | opened, p :: ps =>
    match p, opened with
    | .sequenceStart, _ | .mappingStart, _ => skipFrom (opened + 1) ps
    | .sequenceEnd, opened + 2 | .mappingEnd, opened + 2 => skipFrom (opened + 1) ps
    | .sequenceEnd, _ | .mappingEnd, _ => some ps
    | _, 0 => some ps
    | _, opened => skipFrom opened ps

/-- Whether a scalar says that a setting is absent. -/
def isAbsent (s : Scalar) : Except Error Bool :=
  if s.style ≠ .plain then .ok false
  else
    match s.tag with
    | none => .ok (s.text.isEmpty || isNull s.text)
    | some tag =>
      if tag ≠ formatTag "null" then .ok false
      else if isNull s.text then .ok true
      else .error (.data [] (.wrongValue (.string s.string) "null"))

/-- The number of 64 bits that a scalar stands for, if it is plain or tagged as an integer in a
literal block. -/
def settingWord? (s : Scalar) : Option UInt64 :=
  match s.style with
  | .plain => word? s.text
  | .literal => if s.tag = some (formatTag "int") then word? s.text else none
  | _ => none

/-- A setting: a number of 64 bits, or null or nothing for none. -/
def readSetting (d : Document) (path : List String) (expected : String) (ps : List Part) :
    Except Error (Option UInt64 × List Part) :=
  match resolve d ps with
  | (.scalar s :: rest, after) => do
    if ← isAbsent s then .ok (none, after.getD rest)
    else
      match settingWord? s with
      | some n => .ok (some n, after.getD rest)
      | none => .error (.data path (s.mismatch expected))
  | (p :: _, _) => .error (mismatch path expected p)
  | ([], _) => .error .malformed

/-- The value of a member of a model file, added to what is read so far. -/
def readMember (d : Document) (path : List String) (draft : ModelFile.Draft)
    (member : ModelFile.Member) (ps : List Part) : Except Error (ModelFile.Draft × List Part) := do
  match member with
  | .volume =>
    let (volume, ps) ← readSetting d path Expected.volume ps
    .ok ({ draft with volume := some volume }, ps)
  | .seed =>
    let (seed, ps) ← readSetting d path Expected.seed ps
    .ok ({ draft with seed := some seed }, ps)
  | .fields =>
    let (model, ps) ← readModel d path ps
    .ok ({ draft with model := some model }, ps)

/-- The members of a model file up to its end. A member that comes twice is refused at its name, and
other names are ignored with all that they hold. -/
def readMembers (d : Document) :
    Nat → ModelFile.Draft → List Part → Except Error (ModelFile.Draft × List Part)
  | _, draft, .mappingEnd :: ps => .ok (draft, ps)
  | fuel + 1, draft, p :: ps => do
    let (name, ps) ← readString d [] Expected.setting (p :: ps)
    match ModelFile.Member.ofName? name with
    | none =>
      match skipFrom 0 ps with
      | some ps => readMembers d fuel draft ps
      | none => .error .malformed
    | some member =>
      if draft.has member then .error (.data [] (.duplicateField name))
      else
        let (draft, ps) ← readMember d [keyName p] draft member ps
        readMembers d fuel draft ps
  | _, _, _ => .error .malformed

def readModelFile (d : Document) (ps : List Part) : Except Error (ModelFile × List Part) :=
  match ps with
  | [] => .error .malformed
  | p :: rest => do
    let (draft, rest) ←
      if p == .mappingStart then readMembers d (rest.length + 1) .empty rest
      else if isEmptyMapping p then .ok (.empty, rest)
      else .error (mismatch [] Expected.modelFile p)
    match draft.complete with
    | .ok file => .ok (file, rest)
    | .error cause => .error (.data [] cause)

/-- What a whole text holds. A fault of the text counts when all that is read before it is as
expected. -/
def parse {α : Type} (read : Document → List Part → Except Error (α × List Part))
    (text : String) : Except Error α := do
  let d := Document.ofText text
  let (a, _) ← read d d.parts
  if d.isWhole then .ok a else .error .malformed

end Specimen.Yaml

namespace Specimen

def FieldType.ofYaml (text : String) : Except Yaml.Error FieldType :=
  Yaml.parse Yaml.readFieldType text

def Model.ofYaml (text : String) : Except Yaml.Error Model :=
  Yaml.parse (Yaml.readModel · []) text

def ModelFile.ofYaml (text : String) : Except Yaml.Error ModelFile :=
  Yaml.parse Yaml.readModelFile text

end Specimen
