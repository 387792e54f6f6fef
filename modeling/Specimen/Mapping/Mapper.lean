import Specimen.Mapping.SetterName
import Specimen.Model
import Specimen.Record
import Specimen.Text.Quoted

/-!
# Delivering records to objects

An object type offers setters by name, through the class `SetterTarget` or through a `SetterTable`.
A mapper binds every field of a model to its setter before any record is delivered, so a missing
setter is an error of the model, not of a record.
-/

namespace Specimen

/-- What a setter does to an object with a value. -/
abbrev Setter (τ : Type) := τ → Value → τ

/-- Object types that offer setters by name. A new object is the type's default. -/
class SetterTarget (τ : Type) extends Inhabited τ where
  /-- The name of the type in messages. -/
  typeName : String
  /-- The setter of a name such as `setImageUrl`. -/
  setter? : String → Option (Setter τ)

/-- Setters collected under names, for objects of a named type. -/
structure SetterTable (τ : Type) where
  typeName : String
  setters : Entries (Setter τ)

namespace SetterTable

variable {τ : Type}

def empty (typeName : String) : SetterTable τ :=
  ⟨typeName, .empty⟩

/-- The table with a setter registered under a name, in place of an earlier one. -/
def insert (table : SetterTable τ) (name : String) (setter : Setter τ) : SetterTable τ :=
  { table with setters := table.setters.insert name setter }

def get? (table : SetterTable τ) (name : String) : Option (Setter τ) :=
  table.setters.get? name

end SetterTable

/-- Why a model cannot be mapped onto a type. -/
inductive MappingError where
  | missingSetter (typeName setter field : String)
  deriving DecidableEq, Repr

namespace MappingError

def message : MappingError → String
  | missingSetter typeName setter field =>
    "No setter found for '" ++ field ++ "' property on type '" ++ typeName ++ "', expected " ++
      typeName ++ "::" ++ setter ++ "($" ++ field ++ ")"

end MappingError

/-- The setters bound to the fields of a model. -/
structure Mapper (τ : Type) where
  bindings : Entries (Setter τ)

namespace Mapper

variable {τ : Type}

/-- The setter for a field, or the error that it is missing. -/
def bindField (typeName : String) (lookup : String → Option (Setter τ)) (field : String) :
    Except MappingError (String × Setter τ) :=
  match lookup (setterName field) with
  | some setter => .ok (field, setter)
  | none => .error (.missingSetter typeName (setterName field) field)

/-- The setters for all fields of a model; the first missing one is reported. -/
def resolve (model : Model) (typeName : String) (lookup : String → Option (Setter τ)) :
    Except MappingError (Mapper τ) := do
  let bindings ← model.names.mapM (bindField typeName lookup)
  .ok ⟨.ofList bindings⟩

/-- The mapper onto a type with setters of its own. -/
def forTarget (τ : Type) [target : SetterTarget τ] (model : Model) :
    Except MappingError (Mapper τ) :=
  resolve model target.typeName target.setter?

/-- The mapper through a table of setters. -/
def fromTable (model : Model) (table : SetterTable τ) : Except MappingError (Mapper τ) :=
  resolve model table.typeName table.get?

/-- The setters to call for a record and the values they get, in the order of the record. Fields
that the mapper does not know have none. -/
def calls (mapper : Mapper τ) (record : Record) : List (Setter τ × Value) :=
  record.toList.filterMap fun (field, value) =>
    (mapper.bindings.get? field).map (·, value)

/-- The object after the calls for a record. -/
def apply (mapper : Mapper τ) (object : τ) (record : Record) : τ :=
  (mapper.calls record).foldl (fun object (setter, value) => setter object value) object

/-- A new object with a record delivered to it. -/
def map [Inhabited τ] (mapper : Mapper τ) (record : Record) : τ :=
  mapper.apply default record

end Mapper

/-! ## Descriptions -/

/-- Names in increasing order of their code points. -/
def sortedNames (names : List String) : List String :=
  names.mergeSort fun a b => !decide (b < a)

/-- The names a table has setters for. -/
def SetterTable.describe {τ : Type} (table : SetterTable τ) : String :=
  "SetterTable \x7b type_name: " ++ Text.quoted table.typeName ++ ", setters: " ++
    Text.quotedList (sortedNames table.setters.names) ++ " \x7d"

/-- The fields a mapper has setters for. -/
def Mapper.describe {τ : Type} (mapper : Mapper τ) : String :=
  "ObjectMapper \x7b fields: " ++ Text.quotedList (sortedNames mapper.bindings.names) ++ " \x7d"

end Specimen
