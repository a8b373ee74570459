import SourceSlice.Criterion
import SourceSlice.Engine.Answer
import SourceSlice.Text.Split
import SourceSlice.Text.Utf8
import SourceSlice.Results.Store
import SourceSlice.FileSystem
import SourceSlice.Results.Edit
import SourceSlice.Batch.Slicer
import SourceSlice.Interchange
import SourceSlice.Digest.Sha256
import SourceSlice.Yaml.Lexer
import SourceSlice.Yaml.Stream
import SourceSlice.Settings.Load
import SourceSlice.Command.Runs
import SourceSlice.Command.Slice
import SourceSlice.Command.Arguments
import SourceSlice.Main
import SourceSlice.Results.Binary64
import SourceSlice.Results.Numeral
import SourceSlice.Proofs.Batch.Rows
import SourceSlice.Proofs.Batch.Plain
import SourceSlice.Proofs.Batch.Sharing
import SourceSlice.Proofs.Engine.Concatenation
import SourceSlice.Proofs.FileSystem.Tree
import SourceSlice.Proofs.Results.Ledger
import SourceSlice.Proofs.Work
import SourceSlice.Proofs.Results.Opening
import SourceSlice.Proofs.Results.History
import SourceSlice.Proofs.Json.RoundTrip
import SourceSlice.Proofs.Json.Lawful
import SourceSlice.Proofs.Batch.Faults
import SourceSlice.Proofs.Command.Stages
import SourceSlice.Proofs.Command.Persistence
import SourceSlice.Proofs.Command.Agreement
import SourceSlice.Proofs.Selection.Distinct
import SourceSlice.Proofs.Selection.Algebra
import SourceSlice.Proofs.Selection.History
import SourceSlice.Proofs.FileSystem.Trail
import SourceSlice.Proofs.Results.Versions
import SourceSlice.Proofs.Results.InStep
import SourceSlice.Proofs.Batch.Reading
import SourceSlice.Proofs.Command.Effective
import SourceSlice.Proofs.Results.Reopening
import SourceSlice.Proofs.Command.Watched
import SourceSlice.Proofs.Command.Unnoticed
import SourceSlice.Proofs.Command.Queries
import SourceSlice.Proofs.Interchange
import SourceSlice.Proofs.Excerpt
import SourceSlice.Proofs.Engine.Grammar
import SourceSlice.Proofs.Criterion.Grammar
import SourceSlice.Proofs.Criterion.RoundTrip
import SourceSlice.Proofs.Engine.Writing
import SourceSlice.Proofs.LineEnds
import SourceSlice.Proofs.Engine.Arguments
import SourceSlice.Proofs.Batch.Splitting
import SourceSlice.Proofs.Selection.Growth
import SourceSlice.Proofs.Table.Writing
import SourceSlice.Proofs.LineNumber
import SourceSlice.Proofs.Selection.Attribution
import SourceSlice.Proofs.Engine.Nameless
import SourceSlice.Proofs.Batch.Unattributed
import SourceSlice.Proofs.Results.Contents
import SourceSlice.Proofs.Command.Provenance
import SourceSlice.Proofs.Results.Transactions
import SourceSlice.Proofs.Results.Edits
