import Specimen.Generator
import Specimen.ModelFile.Load
import Specimen.Output.Format
import Specimen.Random.ChaCha

/-!
# From options to a generator

The model comes from a model file, from declarations, or from both, the declarations last; without
either it is the standard model. The number of records and the seed are those of the options, else
those of the model file, else the standard number and a source that differs each time.
-/

namespace Specimen

/-- Where a model comes from. -/
structure ModelOptions where
  /-- The path of a model file. -/
  file : Option String
  /-- Names with their type strings. -/
  declarations : List (String × String)
  deriving DecidableEq, Repr

/-- Why options give no model. -/
inductive ConfigError where
  | modelFile (path : String) (cause : ModelFileError)
  | declarations (cause : ModelError)
  /-- A declared field is in the model file already. -/
  | clash (cause : ModelError)
  deriving DecidableEq

namespace ConfigError

/-- The messages of an error and of what caused it, outermost first. -/
def messages : ConfigError → List String
  | modelFile path cause => ("Failed to load model from " ++ Text.quoted path) :: cause.messages
  | declarations cause => "Invalid inline field declaration" :: cause.messages
  | clash cause => "Inline fields clash with the model file" :: cause.messages

/-- Whether the cause is a model file that is not in its format. -/
def isMalformed : ConfigError → Bool
  | modelFile _ cause => cause.isMalformed
  | _ => false

end ConfigError

namespace ModelOptions

/-- The model file at the path, if there is one. -/
def loadFile (o : ModelOptions) (read : String → Except FileError ByteArray) :
    Except ConfigError (Option ModelFile) :=
  match o.file with
  | none => .ok none
  | some path =>
    match ModelFile.load read path with
    | .ok file => .ok (some file)
    | .error cause => .error (.modelFile path cause)

/-- A model file with the fields of a model added after its own. -/
def extend (file : ModelFile) (added : Model) : Except ConfigError ModelFile :=
  match Model.ofTypes (file.model.toList ++ added.toList) with
  | .ok model => .ok { file with model }
  | .error cause => .error (.clash cause)

/-- The model with its settings. The file is loaded before the declarations are looked at. -/
def resolve (o : ModelOptions) (read : String → Except FileError ByteArray) :
    Except ConfigError ModelFile := do
  let file ← o.loadFile read
  let declared ← (Model.parse o.declarations).mapError .declarations
  match file with
  | some file => extend file declared
  | none => .ok ⟨none, none, if declared.isEmpty then .standard else declared⟩

end ModelOptions

/-- What is to be generated and where it goes. -/
structure GenerateOptions where
  model : ModelOptions
  /-- The number of records. -/
  volume : Option UInt64
  seed : Option UInt64
  format : OutputFormat
  /-- The path of a file to write; the standard output if there is none. -/
  output : Option String
  deriving DecidableEq, Repr

namespace GenerateOptions

/-- The generator for the options. A source without seed begins at a given key. -/
def generator (o : GenerateOptions) (read : String → Except FileError ByteArray)
    (key : Vector UInt32 8) : Except ConfigError (Generator ChaCha) := do
  let file ← o.model.resolve read
  .ok {
    model := file.model
    volume := (o.volume.or file.volume).getD defaultVolume
    source := match o.seed.or file.seed with
      | some seed => .ofSeed seed
      | none => .ofKey key }

end GenerateOptions

end Specimen
