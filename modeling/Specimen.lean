import Specimen.Binary64
import Specimen.CommandLine.Command
import Specimen.CommandLine.Options
import Specimen.Config.Declaration
import Specimen.Config.Resolve
import Specimen.Decimal.Basic
import Specimen.Decimal.Layout
import Specimen.Decimal.Literal
import Specimen.Decimal.Shortest
import Specimen.Decode.Error
import Specimen.Entries
import Specimen.FieldType.Basic
import Specimen.FieldType.Error
import Specimen.FieldType.Printer
import Specimen.FieldType.Reader
import Specimen.Files.Folder
import Specimen.Files.Path
import Specimen.Generate.Text
import Specimen.Generate.Value
import Specimen.Generator
import Specimen.Json.Number
import Specimen.Json.Printer
import Specimen.Json.Reader
import Specimen.Json.Text
import Specimen.Json.Token
import Specimen.Main
import Specimen.Mapping.Mapper
import Specimen.Mapping.SetterName
import Specimen.Model
import Specimen.ModelFile
import Specimen.ModelFile.Load
import Specimen.Numeral
import Specimen.Output.Format
import Specimen.Output.Metrics
import Specimen.Output.Sink
import Specimen.Random.ChaCha
import Specimen.Random.Range
import Specimen.Random.Source
import Specimen.Record
import Specimen.Report
import Specimen.Text.Blank
import Specimen.Text.Cut
import Specimen.Text.Hidden
import Specimen.Text.Quoted
import Specimen.Text.UpperCase
import Specimen.Value
import Specimen.WordPool
import Specimen.Yaml.Cursor
import Specimen.Yaml.Document
import Specimen.Yaml.Event
import Specimen.Yaml.Lexer
import Specimen.Yaml.Plain
import Specimen.Yaml.Printer
import Specimen.Yaml.Reader
import Specimen.Yaml.Scalar
import Specimen.Yaml.Tag
import Specimen.Yaml.Token
import Specimen.Proofs.Digits
import Specimen.Proofs.TypeStrings
import Specimen.Proofs.Magnitude
import Specimen.Proofs.Nearest
import Specimen.Proofs.CanonicalText
import Specimen.Proofs.UnpackedRounding
import Specimen.Proofs.Arithmetic
import Specimen.Proofs.Drawing
import Specimen.Proofs.RecordStream
import Specimen.Proofs.RangeDraws
import Specimen.Proofs.Conformance
import Specimen.Proofs.FloatDraws
import Specimen.Proofs.ReadModels
import Specimen.Proofs.DrawFailures
import Specimen.Proofs.Declarations
import Specimen.Proofs.Resolution
import Specimen.Proofs.JsonTokens
import Specimen.Proofs.JsonModels
import Specimen.Proofs.ShortestDecimal
import Specimen.Proofs.JsonLiterals
import Specimen.Proofs.ScaledFloats
import Specimen.Proofs.Handover
import Specimen.Proofs.JsonValues
import Specimen.Proofs.WrittenRecords
import Specimen.Proofs.Delivery
import Specimen.Proofs.Refusals
import Specimen.Proofs.WordTexts
import Specimen.Proofs.SentenceTexts
import Specimen.Proofs.SetterNames
import Specimen.Proofs.TrimmedTexts
import Specimen.Proofs.ReportTable
import Specimen.Proofs.DeclarationTexts
import Specimen.Proofs.JsonTexts
import Specimen.Proofs.JsonEntries
import Specimen.Proofs.FieldOrder
