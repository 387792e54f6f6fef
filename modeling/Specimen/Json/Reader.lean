import Specimen.Json.Token
import Specimen.ModelFile
import Specimen.Record

/-!
# Reading JSON

Type strings, models, model files, values and records are read off the tokens of a text from left to
right. The first thing that is wrong decides: a fault of the text, or a value that is not what is
expected where it stands.
-/

namespace Specimen.Json

/-- Why a text is refused. -/
inductive Error where
  /-- The text is no JSON. -/
  | malformed
  | data (cause : DecodeError)
  deriving DecidableEq

/-- How JSON names what it holds. -/
def foundNames : FoundNames :=
  ⟨"null", .json⟩

/-- The message of an error, without the ` at line L column C` that is shown behind it. A text that
is not well-formed is told by that alone, not by what is wrong with it. -/
def Error.message : Error → String
  | malformed => "the text is not well-formed"
  | data cause => cause.message foundNames

/-- The error for tokens that begin with something else than expected. A sequence or mapping is told
by its bracket. -/
def mismatch (expected : String) : List Token → Error
  | .null :: _ => .data (.wrongType .null expected)
  | .boolean b :: _ => .data (.wrongType (.boolean b) expected)
  | .number l :: _ =>
    match l.value? with
    | some (.natural n) => .data (.wrongType (.integer n.toNat) expected)
    | some (.negative n) => .data (.wrongType (.integer n.toInt) expected)
    | some (.float x) => .data (.wrongType (.float x) expected)
    | none => .malformed
  | .string units :: _ =>
    match Unit.characters? units with
    | some cs => .data (.wrongType (.string (String.ofList cs)) expected)
    | none => .malformed
  | .openBracket :: _ => .data (.wrongType .sequence expected)
  | .openBrace :: _ => .data (.wrongType .mapping expected)
  | _ => .malformed

/-- A result for which no token may follow. -/
def complete {α : Type} : Except Error (α × List Token) → Except Error α
  | .ok (a, []) => .ok a
  | .ok (_, _ :: _) => .error .malformed
  | .error e => .error e

/-- The text of a string. -/
def characters (units : List Unit) : Except Error String :=
  match Unit.characters? units with
  | some cs => .ok (String.ofList cs)
  | none => .error .malformed

/-! ## Type strings and models -/

def readString (expected : String) : List Token → Except Error (String × List Token)
  | .string units :: ts => do
    let s ← characters units
    .ok (s, ts)
  | ts => .error (mismatch expected ts)

def readFieldType (ts : List Token) : Except Error (FieldType × List Token) := do
  let (typeString, ts) ← readString Expected.string ts
  match FieldType.parse typeString with
  | .ok type => .ok (type, ts)
  | .error cause => .error (.data (.type cause))

/-- The members of a mapping of strings after its first, up to the closing brace. -/
def readStringsAfter : List Token → Except Error (List (String × String) × List Token)
  | .closeBrace :: ts => .ok ([], ts)
  | .comma :: .string key :: .colon :: .string units :: ts => do
    let name ← characters key
    let value ← characters units
    let (members, ts) ← readStringsAfter ts
    .ok ((name, value) :: members, ts)
  | .comma :: .string key :: .colon :: ts => do
    let _ ← characters key
    .error (mismatch Expected.string ts)
  | _ => .error .malformed

/-- The members of a mapping of strings after its opening brace. -/
def readStrings : List Token → Except Error (List (String × String) × List Token)
  | .closeBrace :: ts => .ok ([], ts)
  | ts => readStringsAfter (.comma :: ts)

/-- A model. All members are read before any type string is looked at. -/
def readModel : List Token → Except Error (Model × List Token)
  | .openBrace :: ts => do
    let (declarations, ts) ← readStrings ts
    match Model.parse declarations with
    | .ok model => .ok (model, ts)
    | .error cause => .error (.data (.model cause))
  | ts => .error (mismatch Expected.model ts)

/-! ## Values of any kind -/

/-- The bracket of a sequence or mapping that is open. -/
inductive Frame where
  | sequence
  | mapping
  deriving DecidableEq, Repr

/-- What may stand at a place inside a value. -/
inductive Place where
  | value
  /-- The first item of a sequence, or its end. -/
  | firstItem
  /-- The first member of a mapping, or its end. -/
  | firstMember
  | member
  /-- A comma or the end of what is open. -/
  | afterValue
  deriving DecidableEq, Repr

/-- What is demanded of a value besides its form. -/
structure Demand where
  /-- Whether a scalar or the name of a member will do. -/
  admits : Token → Bool
  /-- How many sequences and mappings may be open at once; none for any number. -/
  depth : Option Nat

namespace Demand

/-- A value that is ignored: only its form counts. -/
def form : Demand :=
  ⟨fun _ => true, none⟩

/-- A value whose strings are texts and whose numbers are in range, at most `depth` deep. -/
def content (depth : Nat) : Demand where
  admits
    | .string units => (Unit.characters? units).isSome
    | .number l => l.value?.isSome
    | _ => true
  depth := some depth

/-- Whether one more sequence or mapping may be opened. -/
def hasRoom (demand : Demand) (opened : List Frame) : Bool :=
  match demand.depth with
  | none => true
  | some depth => opened.length < depth

end Demand

/-- The tokens after a value, of which the frames are already open and a place is reached; none if
the tokens have not the form of a value or do not meet the demand. -/
def skipFrom (demand : Demand) : List Frame → Place → List Token → Option (List Token)
  | _, _, [] => none
  | opened, place, t :: ts =>
    let next (opened : List Frame) : Option (List Token) :=
      match opened with
      | [] => some ts
      | _ :: _ => skipFrom demand opened .afterValue ts
    match place, t, opened with
    | .firstItem, .closeBracket, .sequence :: outer => next outer
    | .firstMember, .closeBrace, .mapping :: outer => next outer
    | .afterValue, .closeBracket, .sequence :: outer => next outer
    | .afterValue, .closeBrace, .mapping :: outer => next outer
    | .afterValue, .comma, .sequence :: _ => skipFrom demand opened .value ts
    | .afterValue, .comma, .mapping :: _ => skipFrom demand opened .member ts
    | .firstMember, .string units, _ | .member, .string units, _ =>
      match ts with
      | .colon :: ts =>
        if demand.admits (.string units) then skipFrom demand opened .value ts else none
      | _ => none
    | .value, .openBracket, _ | .firstItem, .openBracket, _ =>
      if demand.hasRoom opened then skipFrom demand (.sequence :: opened) .firstItem ts else none
    | .value, .openBrace, _ | .firstItem, .openBrace, _ =>
      if demand.hasRoom opened then skipFrom demand (.mapping :: opened) .firstMember ts else none
    | .value, .null, _ | .firstItem, .null, _ => next opened
    | .value, .boolean _, _ | .firstItem, .boolean _, _ => next opened
    | .value, .number l, _ | .firstItem, .number l, _ =>
      if demand.admits (.number l) then next opened else none
    | .value, .string units, _ | .firstItem, .string units, _ =>
      if demand.admits (.string units) then next opened else none
    | _, _, _ => none

/-- The tokens after a value of any kind. -/
def skip (demand : Demand) (ts : List Token) : Option (List Token) :=
  skipFrom demand [] .value ts

/-! ## Records -/

/-- How many sequences and mappings may be open at once in a document that is read for its values.
-/
def maxDepth : Nat := 127

/-- The error for a value that is neither a number nor a string, inside of `outer` mappings. -/
def noValue (outer : Nat) (ts : List Token) : Error :=
  match skip (.content (maxDepth - outer)) ts with
  | some _ => .data .noValueKind
  | none => .malformed

/-- The value of a number. An integer beyond 64 bits with sign is a float. -/
def numberValue : Number → Value
  | .natural n =>
    if n.toNat ≤ Int64.maxValue.toInt then .int n.toInt64 else .float (Binary64.ofNat n.toNat)
  | .negative n => .int n
  | .float x => .float x

/-- The value of a token, if it is a number or a string. -/
def scalarValue? : Token → Option Value
  | .number l => l.value?.map numberValue
  | .string units => (Unit.characters? units).map fun cs => .text (String.ofList cs)
  | _ => none

/-- A value, inside of `outer` mappings. -/
def readValue (outer : Nat) : List Token → Except Error (Value × List Token)
  | t :: ts =>
    match scalarValue? t with
    | some v => .ok (v, ts)
    | none => .error (noValue outer (t :: ts))
  | [] => .error .malformed

/-- The members of a record after its first, up to the closing brace. -/
def readFieldsAfter : List Token → Except Error (List (String × Value) × List Token)
  | .closeBrace :: ts => .ok ([], ts)
  | .comma :: .string key :: .colon :: t :: ts => do
    let name ← characters key
    match scalarValue? t with
    | some v =>
      let (fields, ts) ← readFieldsAfter ts
      .ok ((name, v) :: fields, ts)
    | none => .error (noValue 1 (t :: ts))
  | _ => .error .malformed

/-- The members of a record after its opening brace. -/
def readFields : List Token → Except Error (List (String × Value) × List Token)
  | .closeBrace :: ts => .ok ([], ts)
  | ts => readFieldsAfter (.comma :: ts)

/-- A record. Of members with the same name the last gives the value and the first the place. -/
def readRecord : List Token → Except Error (Record × List Token)
  | .openBrace :: ts => do
    let (fields, ts) ← readFields ts
    .ok (Record.ofList fields, ts)
  | ts => .error (mismatch Expected.record ts)

/-- The records of a sequence after its first, up to the closing bracket. -/
def readRecordsAfter : Nat → List Token → Except Error (List Record × List Token)
  | _, .closeBracket :: ts => .ok ([], ts)
  | fuel + 1, .comma :: ts => do
    let (record, ts) ← readRecord ts
    let (records, ts) ← readRecordsAfter fuel ts
    .ok (record :: records, ts)
  | _, _ => .error .malformed

def readRecords : List Token → Except Error (List Record × List Token)
  | .openBracket :: .closeBracket :: ts => .ok ([], ts)
  | .openBracket :: ts => readRecordsAfter (ts.length + 1) (.comma :: ts)
  | ts => .error (mismatch "a sequence" ts)

/-! ## Model files -/

/-- A setting: a number of 64 bits, or null for none. -/
def readSetting (expected : String) : List Token → Except Error (Option UInt64 × List Token)
  | .null :: ts => .ok (none, ts)
  | .number l :: ts =>
    match l.value? with
    | some (.natural n) => .ok (some n, ts)
    | some (.negative n) => .error (.data (.wrongValue (.integer n.toInt) expected))
    | some (.float x) => .error (.data (.wrongType (.float x) expected))
    | none => .error .malformed
  | ts => .error (mismatch expected ts)

/-- The value of a member of a model file, added to what is read so far. -/
def readMember (draft : ModelFile.Draft) (member : ModelFile.Member) (ts : List Token) :
    Except Error (ModelFile.Draft × List Token) := do
  match member with
  | .volume =>
    let (volume, ts) ← readSetting Expected.volume ts
    .ok ({ draft with volume := some volume }, ts)
  | .seed =>
    let (seed, ts) ← readSetting Expected.seed ts
    .ok ({ draft with seed := some seed }, ts)
  | .fields =>
    let (model, ts) ← readModel ts
    .ok ({ draft with model := some model }, ts)

/-- The members of a model file up to the closing brace. A member that comes twice is refused at its
name. -/
def readMembersAfter :
    Nat → ModelFile.Draft → List Token → Except Error (ModelFile.Draft × List Token)
  | _, draft, .closeBrace :: ts => .ok (draft, ts)
  | fuel + 1, draft, .comma :: .string key :: ts => do
    let name ← characters key
    match ModelFile.Member.ofName? name with
    | none =>
      match ts with
      | .colon :: ts =>
        match skip .form ts with
        | some ts => readMembersAfter fuel draft ts
        | none => .error .malformed
      | _ => .error .malformed
    | some member =>
      if draft.has member then .error (.data (.duplicateField name))
      else
        match ts with
        | .colon :: ts =>
          let (draft, ts) ← readMember draft member ts
          readMembersAfter fuel draft ts
        | _ => .error .malformed
  | _, _, _ => .error .malformed

/-- The error for a model file written as a sequence that ends early. -/
def shortSequence : Error :=
  .data (.wrongLength 2 Expected.modelFileSequence)

/-- A model file written as the sequence of its members. -/
def readSequence (ts : List Token) : Except Error (ModelFile × List Token) := do
  match ts with
  | .closeBracket :: _ => .error shortSequence
  | ts =>
    let (volume, ts) ← readSetting Expected.volume ts
    match ts with
    | .closeBracket :: _ => .error shortSequence
    | .comma :: ts =>
      let (seed, ts) ← readSetting Expected.seed ts
      match ts with
      | .closeBracket :: _ => .error shortSequence
      | .comma :: ts =>
        let (model, ts) ← readModel ts
        match ts with
        | .closeBracket :: ts => .ok (⟨volume, seed, model⟩, ts)
        | _ => .error .malformed
      | _ => .error .malformed
    | _ => .error .malformed

/-- A model file, as a mapping or as a sequence. -/
def readModelFile : List Token → Except Error (ModelFile × List Token)
  | .openBracket :: ts => readSequence ts
  | .openBrace :: ts => do
    let ts := match ts with
      | .closeBrace :: _ => ts
      | ts => .comma :: ts
    let (draft, ts) ← readMembersAfter (ts.length + 1) .empty ts
    match draft.complete with
    | .ok file => .ok (file, ts)
    | .error cause => .error (.data cause)
  | ts => .error (mismatch Expected.modelFile ts)

/-! ## Whole texts -/

/-- What a whole text holds. -/
def parse {α : Type} (read : List Token → Except Error (α × List Token)) (text : String) :
    Except Error α :=
  complete (read (tokens text.toList))

end Specimen.Json

namespace Specimen

def FieldType.ofJson (text : String) : Except Json.Error FieldType :=
  Json.parse Json.readFieldType text

def Model.ofJson (text : String) : Except Json.Error Model :=
  Json.parse Json.readModel text

def ModelFile.ofJson (text : String) : Except Json.Error ModelFile :=
  Json.parse Json.readModelFile text

def Value.ofJson (text : String) : Except Json.Error Value :=
  Json.parse (Json.readValue 0) text

def Record.ofJson (text : String) : Except Json.Error Record :=
  Json.parse Json.readRecord text

/-- The records that a JSON text holds. -/
def Record.listOfJson (text : String) : Except Json.Error (List Record) :=
  Json.parse Json.readRecords text

end Specimen
