import Specimen.Text.Cut

/-!
# Paths

A path is a text whose parts are divided by slashes. Empty parts and single points say nothing; two
points lead to the folder around.
-/

namespace Specimen

/-- A part of a path that leads somewhere. -/
inductive PathPart where
  | name (s : List Char)
  | parent
  deriving DecidableEq, Repr

namespace Path

/-- The texts between the slashes of a path. -/
def pieces (path : String) : List (List Char) :=
  Text.splitAt '/' path.toList

/-- What a text between slashes says. -/
def part? (piece : List Char) : Option PathPart :=
  if piece = [] ∨ piece = ['.'] then none
  else if piece = ['.', '.'] then some .parent
  else some (.name piece)

/-- The parts of a path. -/
def parts (path : String) : List PathPart :=
  (pieces path).filterMap part?

def isAbsolute (path : String) : Bool :=
  path.toList.head? == some '/'

/-- The name that a path ends with, unless it ends with its root or with a way up. -/
def fileName? (path : String) : Option (List Char) :=
  match (parts path).getLast? with
  | some (.name s) => some s
  | _ => none

/-- What follows the last point of a name, unless the point is its first character or is missing. -/
def extensionOf? (name : List Char) : Option (List Char) :=
  match Text.cut? '.' name.reverse with
  | some (_, []) => none
  | some (after, _) => some after.reverse
  | none => none

/-- The extension of the name that a path ends with. -/
def extension? (path : String) : Option String :=
  ((fileName? path).bind extensionOf?).map String.ofList

end Path

end Specimen
