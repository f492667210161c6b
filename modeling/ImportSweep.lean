import ImportSweep.Command.Arguments
import ImportSweep.Command.Basic
import ImportSweep.Command.Run
import ImportSweep.Decimal.Layout
import ImportSweep.Decimal.Shortest
import ImportSweep.Files.Discovery
import ImportSweep.Files.Entry
import ImportSweep.Files.Launch
import ImportSweep.Files.Path
import ImportSweep.Files.Store
import ImportSweep.Files.Traversal
import ImportSweep.Files.Walk
import ImportSweep.Imports
import ImportSweep.Json.Basic
import ImportSweep.Json.Draft
import ImportSweep.Json.Fault
import ImportSweep.Json.Number
import ImportSweep.Json.Printer
import ImportSweep.Json.Token
import ImportSweep.Main
import ImportSweep.Names.Exported
import ImportSweep.Names.Interpolation
import ImportSweep.Names.NameSet
import ImportSweep.Names.Used
import ImportSweep.Parser.Answer
import ImportSweep.Parser.Error
import ImportSweep.Parser.Request
import ImportSweep.Parser.Service
import ImportSweep.Proofs.Answers
import ImportSweep.Proofs.Batch
import ImportSweep.Proofs.Bytes
import ImportSweep.Proofs.CheckRun
import ImportSweep.Proofs.Contents
import ImportSweep.Proofs.DecodedMembers
import ImportSweep.Proofs.Decoding
import ImportSweep.Proofs.DeletedImports
import ImportSweep.Proofs.Detection
import ImportSweep.Proofs.Discovery
import ImportSweep.Proofs.Exported
import ImportSweep.Proofs.Fallible
import ImportSweep.Proofs.FirstErrors
import ImportSweep.Proofs.ImportedContents
import ImportSweep.Proofs.Interpolation
import ImportSweep.Proofs.JsonText
import ImportSweep.Proofs.KeptLines
import ImportSweep.Proofs.LineNumbers
import ImportSweep.Proofs.Lines
import ImportSweep.Proofs.LooseValues
import ImportSweep.Proofs.Matches
import ImportSweep.Proofs.Offsets
import ImportSweep.Proofs.OutermostImports
import ImportSweep.Proofs.OwnLevel
import ImportSweep.Proofs.OwnText
import ImportSweep.Proofs.PlacedImports
import ImportSweep.Proofs.Places
import ImportSweep.Proofs.Preorder
import ImportSweep.Proofs.Pruning
import ImportSweep.Proofs.RemovedBytes
import ImportSweep.Proofs.ReportText
import ImportSweep.Proofs.ReportedLines
import ImportSweep.Proofs.RequestText
import ImportSweep.Proofs.RuleEdits
import ImportSweep.Proofs.RuleOrder
import ImportSweep.Proofs.SafeCuts
import ImportSweep.Proofs.Shapes
import ImportSweep.Proofs.Spans
import ImportSweep.Proofs.StepwiseRemoval
import ImportSweep.Proofs.Stores
import ImportSweep.Proofs.TracedLines
import ImportSweep.Proofs.TreeVariants
import ImportSweep.Proofs.Used
import ImportSweep.Proofs.Utf8
import ImportSweep.Proofs.ValueErrors
import ImportSweep.Proofs.WalkCalls
import ImportSweep.Proofs.WholeValues
import ImportSweep.Report.Basic
import ImportSweep.Report.Json
import ImportSweep.Report.Text
import ImportSweep.Source.Position
import ImportSweep.Source.Removal
import ImportSweep.Sweep
import ImportSweep.Text.Blank
import ImportSweep.Text.CodeRange
import ImportSweep.Text.Printable
import ImportSweep.Text.Quoted
import ImportSweep.Text.Utf8
import ImportSweep.Text.Word
import ImportSweep.Tree.Build
import ImportSweep.Tree.Debug
import ImportSweep.Tree.Decode
import ImportSweep.Tree.DecodeError
import ImportSweep.Tree.Error
import ImportSweep.Tree.Kind
import ImportSweep.Tree.Line
import ImportSweep.Tree.Node
import ImportSweep.Tree.Outline
import ImportSweep.Tree.Walk
