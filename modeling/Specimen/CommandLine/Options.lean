import Specimen.Config.Declaration
import Specimen.Config.Resolve

/-!
# Options on a command line

An option is named by two dashes and a word, some also by one dash and a letter. Its value follows
as an argument of its own that does not begin with a dash, or in the same argument: after an equals
sign, or directly after the letter. All options but the declarations of fields are given once at
most.
-/

namespace Specimen

/-- An option. -/
inductive CommandOption where
  | model
  | field
  | volume
  | seed
  | format
  | output
  deriving DecidableEq, Repr

namespace CommandOption

def word : CommandOption → String
  | model => "model"
  | field => "field"
  | volume => "volume"
  | seed => "seed"
  | format => "format"
  | output => "output"

def letter? : CommandOption → Option Char
  | model => some 'm'
  | volume => some 'n'
  | output => some 'o'
  | _ => none

/-- The options that say where a model comes from. -/
def ofModel : List CommandOption :=
  [model, field]

def ofGenerate : List CommandOption :=
  [model, field, volume, seed, format, output]

end CommandOption

/-- Why arguments are no command. -/
inductive UsageError where
  /-- The arguments ask how the program is used. -/
  | helpAsked
  | noCommand
  | unknownCommand (arg : String)
  | unknownArgument (arg : String)
  | missingValue (option : CommandOption)
  | repeatedOption (option : CommandOption)
  | invalidValue (option : CommandOption) (value : String)
  deriving DecidableEq, Repr

namespace UsageError

def message : UsageError → String
  | helpAsked => "usage: specimen generate|check [options]"
  | noCommand => "a command is missing, expected generate or check"
  | unknownCommand arg => "unknown command '" ++ arg ++ "', expected generate or check"
  | unknownArgument arg => "unexpected argument '" ++ arg ++ "'"
  | missingValue option => "option '--" ++ option.word ++ "' needs a value"
  | repeatedOption option => "option '--" ++ option.word ++ "' is given more than once"
  | invalidValue option value =>
    "invalid value '" ++ value ++ "' for option '--" ++ option.word ++ "'"

def exitCode : UsageError → UInt8
  | helpAsked => 0
  | _ => 2

end UsageError

/-! ## The values of options -/

/-- A number of 64 bits, with a plus sign or none. -/
def word64? (value : String) : Option UInt64 :=
  let digits := match value.toList with
    | '+' :: digits => digits
    | digits => digits
  (Numeral.readUpTo? (UInt64.size - 1) digits).map UInt64.ofNat

/-- The options of a command as far as they are read. -/
structure OptionDraft where
  model : Option String
  /-- The declarations, in reverse. -/
  declarations : List (String × String)
  volume : Option UInt64
  seed : Option UInt64
  format : Option OutputFormat
  output : Option String
  deriving DecidableEq, Repr

namespace OptionDraft

def empty : OptionDraft :=
  ⟨none, [], none, none, none, none⟩

/-- Whether an option that may be given once is given. -/
def has (d : OptionDraft) : CommandOption → Bool
  | .model => d.model.isSome
  | .field => false
  | .volume => d.volume.isSome
  | .seed => d.seed.isSome
  | .format => d.format.isSome
  | .output => d.output.isSome

/-- With the value of an option; none if the value is invalid. -/
def set? (d : OptionDraft) (option : CommandOption) (value : String) : Option OptionDraft :=
  match option with
  | .model => if value.isEmpty then none else some { d with model := some value }
  | .field =>
    (parseDeclaration value).toOption.map fun declaration =>
      { d with declarations := declaration :: d.declarations }
  | .volume => (word64? value).map fun n => { d with volume := some n }
  | .seed => (word64? value).map fun n => { d with seed := some n }
  | .format => (OutputFormat.ofName? value).map fun format => { d with format := some format }
  | .output => if value.isEmpty then none else some { d with output := some value }

/-- With the value of an option that is not given yet. -/
def set (d : OptionDraft) (option : CommandOption) (value : String) :
    Except UsageError OptionDraft :=
  match d.set? option value with
  | none => .error (.invalidValue option value)
  | some new => if d.has option then .error (.repeatedOption option) else .ok new

def modelOptions (d : OptionDraft) : ModelOptions :=
  ⟨d.model, d.declarations.reverse⟩

end OptionDraft

/-! ## Arguments -/

/-- An argument that names an option, with its value if it has one. -/
abbrev NamedArgument := CommandOption × Option String

/-- The option that an argument names by its word, after two dashes. -/
def readLong (known : List CommandOption) (arg : String) (cs : List Char) :
    Except UsageError NamedArgument :=
  let (name, value) := match Text.cut? '=' cs with
    | some (name, value) => (name, some (String.ofList value))
    | none => (cs, none)
  match known.find? (·.word.toList == name) with
  | some option => .ok (option, value)
  | none =>
    .error (if name = "help".toList ∧ value = none then .helpAsked else .unknownArgument arg)

/-- The option that an argument names by its letter, after one dash. -/
def readShort (known : List CommandOption) (arg : String) (letter : Char) (cs : List Char) :
    Except UsageError NamedArgument :=
  match known.find? (·.letter? == some letter) with
  | some option =>
    let value := match cs with
      | [] => none
      | '=' :: value => some value
      | value => some value
    .ok (option, value.map String.ofList)
  | none => .error (if letter = 'h' then .helpAsked else .unknownArgument arg)

def readName (known : List CommandOption) (arg : String) : Except UsageError NamedArgument :=
  match arg.toList with
  | '-' :: '-' :: cs => readLong known arg cs
  | '-' :: letter :: cs => readShort known arg letter cs
  | _ => .error (.unknownArgument arg)

/-- Whether an argument may be the value of the option before it. A single dash may. -/
def mayBeValue (arg : String) : Bool :=
  arg == "-" || arg.toList.head? != some '-'

/-- The options that arguments give, added to what is read. -/
def readOptions (known : List CommandOption) (d : OptionDraft) :
    List String → Except UsageError OptionDraft
  | [] => .ok d
  | "--" :: rest =>
    match rest with
    | [] => .ok d
    | extra :: _ => .error (.unknownArgument extra)
  | arg :: rest => do
    match ← readName known arg, rest with
    | (option, some value), rest => readOptions known (← d.set option value) rest
    | (option, none), value :: rest =>
      if mayBeValue value then readOptions known (← d.set option value) rest
      else .error (.missingValue option)
    | (option, none), [] => .error (.missingValue option)

end Specimen
