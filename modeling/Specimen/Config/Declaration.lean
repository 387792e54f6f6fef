import Specimen.Text.Blank
import Specimen.Text.Cut

/-!
# Declarations of fields on a command line

A declaration is a name and a type string with an equals sign between them. Blanks around both are
dropped, and the type string is not looked at here.
-/

namespace Specimen

/-- A text that declares no field. -/
structure DeclarationError where
  text : String
  deriving DecidableEq, Repr

/-- The message shown for a text that declares no field. -/
def DeclarationError.message (e : DeclarationError) : String :=
  "Invalid field declaration '" ++ e.text ++ "', expected NAME=TYPE"

/-- The name and the type string of a declaration, as characters. -/
def declarationParts? (cs : List Char) : Option (List Char × List Char) :=
  match Text.cut? '=' cs with
  | some (name, typeString) =>
    if Text.trim name = [] then none else some (Text.trim name, Text.trim typeString)
  | none => none

/-- The name and the type string of a declaration. -/
def parseDeclaration (text : String) : Except DeclarationError (String × String) :=
  match declarationParts? text.toList with
  | some (name, typeString) => .ok (String.ofList name, String.ofList typeString)
  | none => .error ⟨text⟩

end Specimen
