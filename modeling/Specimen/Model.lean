import Specimen.Entries
import Specimen.FieldType.Printer

/-!
# Models

A model declares the fields of a record: distinct names with their types, in order. It is built from
declarations, each a name and a type string; the first declaration at fault is reported.
-/

namespace Specimen

/-- Why declarations make no model. -/
inductive ModelError where
  | invalidField (field typeString : String) (cause : TypeError)
  | duplicateField (field : String)
  deriving DecidableEq, Repr

namespace ModelError

/-- The message shown for an error; that of a cause is apart. -/
def message : ModelError → String
  | invalidField field typeString _ =>
    "Invalid type '" ++ typeString ++ "' for field '" ++ field ++ "'"
  | duplicateField field => "Field '" ++ field ++ "' is declared more than once"

/-- The messages of the error and of what caused it, outermost first. -/
def messages (e : ModelError) : List String :=
  e.message :: match e with
    | invalidField _ _ cause => [cause.message]
    | duplicateField _ => []

end ModelError

/-- Field types under distinct names, in order. -/
structure Model where
  fields : Entries FieldType
  deriving DecidableEq

namespace Model

def empty : Model :=
  ⟨.empty⟩

def toList (m : Model) : List (String × FieldType) :=
  m.fields.toList

def names (m : Model) : List String :=
  m.fields.names

def get? (m : Model) (name : String) : Option FieldType :=
  m.fields.get? name

def size (m : Model) : Nat :=
  m.fields.size

def isEmpty (m : Model) : Bool :=
  m.fields.isEmpty

/-- Equality of models gives no weight to the order of the fields. -/
instance : BEq Model where
  beq a b := a.fields.sameValues b.fields

/-- The model with one more field, refused if the name is taken. -/
def declare (m : Model) (name : String) (type : FieldType) : Except ModelError Model :=
  if h : name ∈ m.fields.names then .error (.duplicateField name)
  else .ok ⟨m.fields.append name type h⟩

/-- The model with more fields of given types, in order. -/
def declareAll (m : Model) (fields : List (String × FieldType)) : Except ModelError Model :=
  fields.foldlM (fun m (name, type) => m.declare name type) m

def ofTypes (fields : List (String × FieldType)) : Except ModelError Model :=
  empty.declareAll fields

/-- The model with one more field, whose type is given as a type string. The type string is
checked before the name. -/
def declareTyped (m : Model) (name typeString : String) : Except ModelError Model :=
  match FieldType.parse typeString with
  | .error cause => .error (.invalidField name typeString cause)
  | .ok type => m.declare name type

/-- The model of declarations, each a name and a type string. -/
def parse (declarations : List (String × String)) : Except ModelError Model :=
  declarations.foldlM (fun m (name, typeString) => m.declareTyped name typeString) empty

/-- The declarations of a model, with canonical type strings. -/
def declarations (m : Model) : List (String × String) :=
  m.toList.map fun (name, type) => (name, type.canonical)

/-! ## The standard model -/

/-- The declarations of the model that is used when none is given. -/
def standardDeclarations : List (String × String) :=
  [("id", "i"), ("title", "t:4-6w"), ("content", "t:5s"), ("image", "p:400*300")]

/-- The model that is used when none is given. -/
def standard : Model where
  fields := {
    toList := [
      ("id", .integer .nonNegative),
      ("title", .text ⟨.words, .range ⟨4, 6, by decide⟩⟩),
      ("content", .text ⟨.sentences, .fixed 5⟩),
      ("image", .image ⟨"400", "300", by decide, by decide⟩)]
    distinct := by decide }

end Model

end Specimen
