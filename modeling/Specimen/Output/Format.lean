import Specimen.Json.Printer
import Specimen.Yaml.Printer

/-!
# Output formats

A batch of records is written as one JSON array, as lines of JSON with one record each, or as one
YAML sequence. Every text ends with a line end, but an empty batch of JSON lines is an empty text.
-/

namespace Specimen

/-- A format for a batch of records. -/
inductive OutputFormat where
  /-- One JSON array over several lines. -/
  | json
  /-- One JSON mapping on each line. -/
  | jsonl
  /-- One YAML sequence. -/
  | yaml
  deriving DecidableEq, Repr

namespace OutputFormat

def all : List OutputFormat :=
  [json, jsonl, yaml]

/-- The format that is used when none is named. -/
def standard : OutputFormat := json

def name : OutputFormat → String
  | json => "json"
  | jsonl => "jsonl"
  | yaml => "yaml"

def ofName? (s : String) : Option OutputFormat :=
  all.find? (·.name == s)

/-- The format of a name in which ASCII letters may be of either case. -/
def ofNameIgnoringCase? (s : String) : Option OutputFormat :=
  ofName? (s.map Char.toLower)

def characters (format : OutputFormat) (records : List Record) : List Char :=
  match format with
  | json => Json.recordsBlock records ++ ['\n']
  | jsonl => records.flatMap fun r => Json.recordText r ++ ['\n']
  | yaml => Yaml.recordsText records

def render (format : OutputFormat) (records : List Record) : String :=
  String.ofList (format.characters records)

end OutputFormat

end Specimen
