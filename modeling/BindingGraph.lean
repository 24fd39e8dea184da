import BindingGraph.Catalog
import BindingGraph.Console.Arguments
import BindingGraph.Console.Commands
import BindingGraph.Console.Invocation
import BindingGraph.Console.Run
import BindingGraph.Console.Usage
import BindingGraph.Console.Values
import BindingGraph.Deadline
import BindingGraph.Decimal.Natural
import BindingGraph.Decimal.Shortest
import BindingGraph.Duration
import BindingGraph.Engine
import BindingGraph.Files.FilePath
import BindingGraph.Files.FileTree
import BindingGraph.Graph.Basic
import BindingGraph.Graph.Dependency
import BindingGraph.Graph.Indexed
import BindingGraph.Graph.NodeStore
import BindingGraph.Graph.Table
import BindingGraph.Json.Cursor
import BindingGraph.Json.Document
import BindingGraph.Json.Expect
import BindingGraph.Json.Fault
import BindingGraph.Json.Literal
import BindingGraph.Json.Numeral
import BindingGraph.Json.Skip
import BindingGraph.Main
import BindingGraph.Name.Closest
import BindingGraph.Name.Distance
import BindingGraph.Path
import BindingGraph.Query.Basic
import BindingGraph.Query.Document
import BindingGraph.Query.Error
import BindingGraph.Query.Kind
import BindingGraph.Query.Line
import BindingGraph.Record.Basic
import BindingGraph.Record.Ledger
import BindingGraph.Report.Answers
import BindingGraph.Report.Listing
import BindingGraph.Report.Output
import BindingGraph.Report.Style
import BindingGraph.Search.Enumeration
import BindingGraph.Search.Machine
import BindingGraph.Search.Trail
import BindingGraph.Session
import BindingGraph.Settings
import BindingGraph.Settings.Document
import BindingGraph.Text.Blank
import BindingGraph.Text.Lines
import BindingGraph.Text.Printable
import BindingGraph.Text.Quoted
import BindingGraph.Text.Separated
import BindingGraph.Text.Utf8
import BindingGraph.Text.Visible
import BindingGraph.Workspace.Configuration
import BindingGraph.Workspace.Error
import BindingGraph.Workspace.Example
import BindingGraph.Workspace.GraphFile
import BindingGraph.Workspace.Initialize
import BindingGraph.Workspace.Opened
import BindingGraph.Workspace.Root
import BindingGraph.Yaml.Cursor
import BindingGraph.Yaml.Fault
import BindingGraph.Yaml.Node
import BindingGraph.Yaml.Numeral
import BindingGraph.Yaml.Scalar
import BindingGraph.Yaml.Token
import BindingGraph.Yaml.Writing
import BindingGraph.Proofs.Engine.Paths
import BindingGraph.Proofs.Text.Lines
import BindingGraph.Proofs.Json.Literal
import BindingGraph.Proofs.Json.Structure
import BindingGraph.Proofs.Record.Written
import BindingGraph.Proofs.Graph.Groups
import BindingGraph.Proofs.Record.Ledger
import BindingGraph.Proofs.Files.Steps
import BindingGraph.Proofs.Record.LedgerGraph
import BindingGraph.Proofs.Files.FileTree
import BindingGraph.Proofs.Workspace.SaveLoad
import BindingGraph.Proofs.Name.Distance
import BindingGraph.Proofs.Record.Accepted
import BindingGraph.Proofs.Catalog.Outcomes
import BindingGraph.Proofs.Catalog.DeclaredPaths
import BindingGraph.Proofs.Graph.Indexed
import BindingGraph.Proofs.Search.RepeatedEdges
import BindingGraph.Proofs.Engine.TableAnswers
import BindingGraph.Proofs.Engine.Deadlines
import BindingGraph.Proofs.Session.Cancelling
import BindingGraph.Proofs.Engine.DeclarationOrder
import BindingGraph.Proofs.Record.LineOrder
import BindingGraph.Proofs.Console.Session
import BindingGraph.Proofs.Console.Documents
import BindingGraph.Proofs.Workspace.Initialized
import BindingGraph.Proofs.Search.LoopHeads
import BindingGraph.Proofs.Search.Bounds
import BindingGraph.Proofs.Engine.Failures
import BindingGraph.Proofs.Graph.Dependents
import BindingGraph.Proofs.Name.Metric
import BindingGraph.Proofs.Record.Warnings
import BindingGraph.Proofs.Text.Validity
import BindingGraph.Proofs.Text.SplitLines
import BindingGraph.Proofs.Files.FileNames
import BindingGraph.Proofs.Workspace.FileContents
import BindingGraph.Proofs.Text.Words
import BindingGraph.Proofs.Query.Line
import BindingGraph.Proofs.Files.Listing
import BindingGraph.Proofs.Files.Extensions
import BindingGraph.Proofs.Files.Attempts
import BindingGraph.Proofs.Workspace.AtomicSaving
import BindingGraph.Proofs.Workspace.GraphDirectory
import BindingGraph.Proofs.Text.Separated
import BindingGraph.Proofs.Engine.ShownPaths
import BindingGraph.Proofs.Engine.TypedRequests
import BindingGraph.Proofs.Console.QueryLines
import BindingGraph.Proofs.Workspace.Discovery
import BindingGraph.Proofs.Console.TimeLimits
import BindingGraph.Proofs.Workspace.Nearest
import BindingGraph.Proofs.Report.PrintedDocuments
import BindingGraph.Proofs.Report.ShownCounts
import BindingGraph.Proofs.Report.GraphCounts
import BindingGraph.Proofs.Workspace.SavedConfiguration
import BindingGraph.Proofs.Report.PaintedText
import BindingGraph.Proofs.Search.TrailSteps
