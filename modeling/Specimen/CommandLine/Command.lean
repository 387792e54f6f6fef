import Specimen.CommandLine.Options
import Specimen.Output.Sink
import Specimen.Report

/-!
# Commands

`generate` writes records of a model to the standard output or to a file, and `check` writes a
report on the model. The number of records and the seed may also come from the environment, which
counts less than the arguments and more than a model file.
-/

namespace Specimen

/-- What the program is asked to do. -/
inductive Command where
  | generate (options : GenerateOptions)
  | check (options : ModelOptions)
  deriving DecidableEq, Repr

namespace Command

/-- The variable of the environment for the number of records. -/
def volumeVariable : String := "RECORD_FORGE_VOLUME"

/-- The variable of the environment for the seed. -/
def seedVariable : String := "RECORD_FORGE_SEED"

/-- The value of an option, or that of a variable if the option is not given. -/
def orVariable (environment : String → Option String) (option : CommandOption) (name : String)
    (given : Option UInt64) : Except UsageError (Option UInt64) :=
  match given, environment name with
  | some n, _ => .ok (some n)
  | none, none => .ok none
  | none, some value =>
    match word64? value with
    | some n => .ok (some n)
    | none => .error (.invalidValue option value)

/-- The command to generate records with options. -/
def ofGenerateArguments (environment : String → Option String) (args : List String) :
    Except UsageError Command := do
  let d ← readOptions CommandOption.ofGenerate .empty args
  let volume ← orVariable environment .volume volumeVariable d.volume
  let seed ← orVariable environment .seed seedVariable d.seed
  .ok (.generate {
    model := d.modelOptions
    volume
    seed
    format := d.format.getD .standard
    output := d.output })

/-- The command to check a model. -/
def ofCheckArguments (args : List String) : Except UsageError Command := do
  let d ← readOptions CommandOption.ofModel .empty args
  .ok (.check d.modelOptions)

/-- The command that arguments give in an environment. -/
def ofArguments (environment : String → Option String) : List String → Except UsageError Command
  | [] => .error .noCommand
  | "generate" :: args => ofGenerateArguments environment args
  | "check" :: args => ofCheckArguments args
  | arg :: _ =>
    .error (if ["help", "--help", "-h"].contains arg then .helpAsked else .unknownCommand arg)

def modelOptions : Command → ModelOptions
  | generate options => options.model
  | check options => options

end Command

/-! ## Running commands -/

/-- Why a command fails. -/
inductive RunError where
  | config (cause : ConfigError)
  /-- No value can be drawn for a field. -/
  | draw (cause : DrawError)
  /-- A column of the report is too wide. -/
  | report
  | createOutput (path : String) (cause : FileError)
  deriving DecidableEq

namespace RunError

/-- The messages of an error and of what caused it, outermost first. -/
def messages : RunError → List String
  | config cause => cause.messages
  | draw .emptyRange => ["cannot draw from an empty range"]
  | draw .unboundedRange => ["cannot draw from an unbounded range"]
  | report => ["a column of the report is too wide"]
  | createOutput path cause =>
    ["Failed to create output file " ++ Text.quoted path, cause.message]

/-- The line written for an error. -/
def line (e : RunError) : String :=
  "Error: " ++ String.intercalate ": " e.messages ++ "\n"

/-- The exit code of the program. What no options give rise to is told apart. -/
def exitCode : RunError → UInt8
  | draw _ => 101
  | report => 101
  | _ => 1

end RunError

/-- A text with the path of the file that it goes to; it goes to the standard output if there is
none. -/
structure Product where
  text : String
  path : Option String
  deriving DecidableEq, Repr

/-- What a command makes. Files are read by a function, and a source without seed begins at a given
key. -/
def Command.run (command : Command) (read : String → Except FileError ByteArray)
    (key : Vector UInt32 8) : Except RunError Product :=
  match command with
  | .generate options => do
    let g ← (options.generator read key).mapError .config
    let (records, _) ← g.fetchAll.mapError .draw
    .ok ⟨options.format.render records, options.output⟩
  | .check options => do
    let file ← (options.resolve read).mapError .config
    match Report.render? file.model with
    | some text => .ok ⟨text, none⟩
    | none => .error .report

end Specimen
