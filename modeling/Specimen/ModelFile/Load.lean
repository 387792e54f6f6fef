import Specimen.Files.Folder
import Specimen.Json.Reader
import Specimen.Yaml.Reader

/-!
# Loading model files

The extension of a path says in which format the file is; other files are refused unread.
-/

namespace Specimen

/-- A format of model files. -/
inductive FileFormat where
  | json
  | yaml
  deriving DecidableEq, Repr

namespace FileFormat

/-- The formats of the extensions, in lower case. -/
def extensions : List (String × FileFormat) :=
  [("yaml", yaml), ("yml", yaml), ("json", json)]

/-- The format that the extension of a path names. -/
def ofPath? (path : String) : Option FileFormat :=
  (Path.extension? path).bind fun s => extensions.lookup (s.map Char.toLower)

end FileFormat

/-- Why a model file cannot be loaded. -/
inductive ModelFileError where
  | unreadable (cause : FileError)
  | json (cause : Json.Error)
  | yaml (cause : Yaml.Error)
  /-- The path has no extension of a format. -/
  | unsupportedFormat (path : String)
  deriving DecidableEq

namespace ModelFileError

/-- The messages of an error and of what caused it, outermost first. -/
def messages : ModelFileError → List String
  | unreadable cause => ["Failed to read model file: " ++ cause.message, cause.message]
  | json cause => ["Failed to parse JSON: " ++ cause.message, cause.message]
  | yaml cause => ["Failed to parse YAML: " ++ cause.message, cause.message]
  | unsupportedFormat path =>
    ["Unsupported model file format: " ++ path ++ " (expected .yaml, .yml or .json)"]

/-- Whether the cause is a text that is not in its format. -/
def isMalformed : ModelFileError → Bool
  | json .malformed => true
  | yaml .malformed => true
  | _ => false

end ModelFileError

namespace ModelFile

def parse (format : FileFormat) (text : String) : Except ModelFileError ModelFile :=
  match format with
  | .json => (ofJson text).mapError .json
  | .yaml => (ofYaml text).mapError .yaml

/-- The model file at a path, whose bytes are read by a function. -/
def load (read : String → Except FileError ByteArray) (path : String) :
    Except ModelFileError ModelFile :=
  match FileFormat.ofPath? path with
  | none => .error (.unsupportedFormat path)
  | some format => do
    let text ← (read path >>= textOfBytes).mapError .unreadable
    parse format text

end ModelFile

end Specimen
