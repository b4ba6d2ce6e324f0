import AssemblerTables.Arrival
import AssemblerTables.BuildFault
import AssemblerTables.Text.CharSet
import AssemblerTables.Text.Blank
import AssemblerTables.Text.Digit
import AssemblerTables.Number.Numeral
import AssemblerTables.Text.Printable
import AssemblerTables.Text.Quoted
import AssemblerTables.Instruction
import AssemblerTables.Bundled.Gr8cpuR3
import AssemblerTables.Text.Pieces
import AssemblerTables.Files.Path
import AssemblerTables.Files.Store
import AssemblerTables.Number.Binary64
import AssemblerTables.Json.Value
import AssemblerTables.Instruction.Record
import AssemblerTables.Text.Lines
import AssemblerTables.Json.Reader
import AssemblerTables.Text.Utf8
import AssemblerTables.Definition
import AssemblerTables.Bundled
import AssemblerTables.Text.Padded
import AssemblerTables.Columns
import AssemblerTables.Text.Case.Tables
import AssemblerTables.Text.Case
import AssemblerTables.Text.Word
import AssemblerTables.Settings
import AssemblerTables.Pattern
import AssemblerTables.Keywords
import AssemblerTables.Groups
import AssemblerTables.Listing
import AssemblerTables.Mode
import AssemblerTables.Variant
import AssemblerTables.Lookup
import AssemblerTables.Tables
import AssemblerTables.CSource
import AssemblerTables.Command.Arguments
import AssemblerTables.Text.Escapes
import AssemblerTables.Command.Failure
import AssemblerTables.Command.Format
import AssemblerTables.Command.Help
import AssemblerTables.Command.Request
import AssemblerTables.Summary
import AssemblerTables.Tables.Journal
import AssemblerTables.Command.Run
import AssemblerTables.Pattern.Split
import AssemblerTables.Main
import AssemblerTables.Proofs.Text.Case
import AssemblerTables.Proofs.Pattern
import AssemblerTables.Proofs.Pattern.Written
import AssemblerTables.Proofs.Distinct
import AssemblerTables.Proofs.Groups
import AssemblerTables.Proofs.Result
import AssemblerTables.Proofs.Lookup
import AssemblerTables.Proofs.Tables
import AssemblerTables.Proofs.Tables.Search
import AssemblerTables.Proofs.Tables.Numbering
import AssemblerTables.Proofs.Text.Pieces
import AssemblerTables.Proofs.Number.Numeral
import AssemblerTables.Proofs.Settings
import AssemblerTables.Proofs.Text.Reading
import AssemblerTables.Proofs.CSource.Document
import AssemblerTables.Proofs.CSource.Layout
import AssemblerTables.Proofs.CSource.Reading
import AssemblerTables.Proofs.CSource.Consistency
import AssemblerTables.Proofs.CSource.Faithful
import AssemblerTables.Proofs.Tables.Acceptance
import AssemblerTables.Proofs.Tables.Extension
import AssemblerTables.Proofs.Text.Spelling
import AssemblerTables.Proofs.Tables.Identifiers
import AssemblerTables.Proofs.Json.Scalars
import AssemblerTables.Proofs.Json.Reader
import AssemblerTables.Proofs.Json.Overlong
import AssemblerTables.Proofs.Definition.Loading
import AssemblerTables.Proofs.Files.Path
import AssemblerTables.Proofs.Tables.Vocabulary
import AssemblerTables.Proofs.Text.Escapes
import AssemblerTables.Proofs.Command.Request
import AssemblerTables.Proofs.Command.Text
import AssemblerTables.Proofs.Command.Ending
import AssemblerTables.Proofs.Command.ExitCode
import AssemblerTables.Proofs.Command.Remains
import AssemblerTables.Proofs.Command.Routes
import AssemblerTables.Proofs.Variant.Stages
import AssemblerTables.Proofs.Variant.Decision
import AssemblerTables.Proofs.Variant.Rendering
import AssemblerTables.Proofs.Keywords.Order
import AssemblerTables.Proofs.Lookup.Partition
import AssemblerTables.Proofs.Text.Trimmed
import AssemblerTables.Proofs.Pattern.Split
import AssemblerTables.Proofs.Pattern.Description
import AssemblerTables.Proofs.Number.Hexadecimal
import AssemblerTables.Proofs.Instruction.Opcode
import AssemblerTables.Proofs.Instruction.Record
import AssemblerTables.Proofs.Definition.Records
import AssemblerTables.Proofs.Pattern.Recovery
import AssemblerTables.Proofs.Listing.Faithful
import AssemblerTables.Proofs.Lookup.Views
import AssemblerTables.Proofs.Settings.Changes
import AssemblerTables.Proofs.Settings.Stem
import AssemblerTables.Proofs.Text.Lines
import AssemblerTables.Proofs.Columns
import AssemblerTables.Proofs.CSource.Rows
import AssemblerTables.Proofs.Listing.Lines
import AssemblerTables.Proofs.Definition.Canonical
import AssemblerTables.Proofs.Summary.Reading
import AssemblerTables.Proofs.Summary.Agreement
