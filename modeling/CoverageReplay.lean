import CoverageReplay.Assembly.Assembler
import CoverageReplay.Assembly.Snapshot
import CoverageReplay.Assembly.Sources
import CoverageReplay.Assembly.Task
import CoverageReplay.Cache
import CoverageReplay.Command.Console
import CoverageReplay.Command.Error
import CoverageReplay.Command.Execution
import CoverageReplay.Command.Invocation
import CoverageReplay.Command.Option
import CoverageReplay.Command.Program
import CoverageReplay.Command.Reach
import CoverageReplay.Command.UsageError
import CoverageReplay.Command.Words
import CoverageReplay.Config
import CoverageReplay.Coverage.Merged
import CoverageReplay.Coverage.Position
import CoverageReplay.Coverage.Profile
import CoverageReplay.Coverage.ProfileText
import CoverageReplay.Coverage.RangeSet
import CoverageReplay.Decimal.Nearest
import CoverageReplay.Decimal.Shortest
import CoverageReplay.Document.Config
import CoverageReplay.Document.Coverage
import CoverageReplay.Document.Job
import CoverageReplay.Document.Order
import CoverageReplay.Document.Settings
import CoverageReplay.Error
import CoverageReplay.Files.Action
import CoverageReplay.Files.Change
import CoverageReplay.Files.Fault
import CoverageReplay.Files.Path
import CoverageReplay.Files.Tree
import CoverageReplay.Job.Config
import CoverageReplay.Job.Id
import CoverageReplay.Job.Orchestrator
import CoverageReplay.Job.Schedule
import CoverageReplay.Job.Status
import CoverageReplay.Job.Worker
import CoverageReplay.Json.Basic
import CoverageReplay.Json.Decode
import CoverageReplay.Json.Reader
import CoverageReplay.Json.Real
import CoverageReplay.Json.Writer
import CoverageReplay.Main
import CoverageReplay.Oracle.Basic
import CoverageReplay.Oracle.Inquiry
import CoverageReplay.Proofs.Assembly.Growth
import CoverageReplay.Proofs.Assembly.Orders
import CoverageReplay.Proofs.Assembly.Snapshots
import CoverageReplay.Proofs.Cache.Clients
import CoverageReplay.Proofs.Cache.Instances
import CoverageReplay.Proofs.Cache.Traffic
import CoverageReplay.Proofs.Coverage.Blocks
import CoverageReplay.Proofs.Coverage.Inclusion
import CoverageReplay.Proofs.Coverage.NormalForm
import CoverageReplay.Proofs.Coverage.Points
import CoverageReplay.Proofs.Coverage.ProfileLines
import CoverageReplay.Proofs.Coverage.Rendering
import CoverageReplay.Proofs.Coverage.Touched
import CoverageReplay.Proofs.Coverage.Union
import CoverageReplay.Proofs.Document.ReadBack
import CoverageReplay.Proofs.Except
import CoverageReplay.Proofs.Files.Actions
import CoverageReplay.Proofs.Files.Changes
import CoverageReplay.Proofs.Files.Locations
import CoverageReplay.Proofs.Files.Paths
import CoverageReplay.Proofs.Files.Reads
import CoverageReplay.Proofs.Job.Alone
import CoverageReplay.Proofs.Job.Ending
import CoverageReplay.Proofs.Job.Id
import CoverageReplay.Proofs.Job.Idle
import CoverageReplay.Proofs.Job.Isolation
import CoverageReplay.Proofs.Job.Progress
import CoverageReplay.Proofs.Job.Reads
import CoverageReplay.Proofs.Job.Runs
import CoverageReplay.Proofs.Job.Slots
import CoverageReplay.Proofs.Job.Statuses
import CoverageReplay.Proofs.Job.Stored
import CoverageReplay.Proofs.Json.RoundTrip
import CoverageReplay.Proofs.Lowering.Captures
import CoverageReplay.Proofs.Lowering.Formats
import CoverageReplay.Proofs.Lowering.Marks
import CoverageReplay.Proofs.Oracle.Inquiry
import CoverageReplay.Proofs.Oracle.Memory
import CoverageReplay.Proofs.Oracle.SharedCalls
import CoverageReplay.Proofs.Pruning.Accounts
import CoverageReplay.Proofs.Pruning.Address
import CoverageReplay.Proofs.Pruning.Bodies
import CoverageReplay.Proofs.Pruning.Erasure
import CoverageReplay.Proofs.Pruning.Fresh
import CoverageReplay.Proofs.Pruning.Growth
import CoverageReplay.Proofs.Pruning.LeastRemoval
import CoverageReplay.Proofs.Pruning.Remains
import CoverageReplay.Proofs.Pruning.Removal
import CoverageReplay.Proofs.Pruning.Rules
import CoverageReplay.Proofs.Pruning.Settled
import CoverageReplay.Proofs.Snapshots.Confinement
import CoverageReplay.Proofs.Snapshots.Directories
import CoverageReplay.Proofs.Snapshots.Manifests
import CoverageReplay.Proofs.Snapshots.Names
import CoverageReplay.Proofs.Snapshots.Rejections
import CoverageReplay.Proofs.Snapshots.Replacing
import CoverageReplay.Proofs.Snapshots.Restoring
import CoverageReplay.Proofs.Snapshots.Targets
import CoverageReplay.Proofs.Snapshots.Writing
import CoverageReplay.Proofs.SortedMap
import CoverageReplay.Proofs.Splicing.Agreement
import CoverageReplay.Proofs.Splicing.Characters
import CoverageReplay.Proofs.Splicing.Forest
import CoverageReplay.Proofs.Splicing.LineHoles
import CoverageReplay.Proofs.Splicing.LineOffsets
import CoverageReplay.Proofs.Splicing.Outline
import CoverageReplay.Proofs.Splicing.Places
import CoverageReplay.Proofs.Splicing.Slices
import CoverageReplay.Proofs.Splicing.Splice
import CoverageReplay.Proofs.Splicing.Sweep
import CoverageReplay.Proofs.TestOrder.Accounts
import CoverageReplay.Proofs.TestOrder.Choice
import CoverageReplay.Proofs.TestOrder.Comparison
import CoverageReplay.Proofs.TestOrder.NetNew
import CoverageReplay.Proofs.TestOrder.Orders
import CoverageReplay.Proofs.TestOrder.Permutation
import CoverageReplay.Proofs.TestOrder.Scores
import CoverageReplay.Proofs.TestOrder.Share
import CoverageReplay.Proofs.TestOrder.Weights
import CoverageReplay.Proofs.Text
import CoverageReplay.Proofs.Text.Bytes
import CoverageReplay.Proofs.Text.Lines
import CoverageReplay.Pruning
import CoverageReplay.Rust.Grammar.Attribute
import CoverageReplay.Rust.Grammar.Expression
import CoverageReplay.Rust.Grammar.Generics
import CoverageReplay.Rust.Grammar.Item
import CoverageReplay.Rust.Grammar.Operator
import CoverageReplay.Rust.Grammar.Path
import CoverageReplay.Rust.Grammar.Pattern
import CoverageReplay.Rust.Grammar.Statement
import CoverageReplay.Rust.Grammar.Type
import CoverageReplay.Rust.Lexer
import CoverageReplay.Rust.Lexer.Literal
import CoverageReplay.Rust.Lexer.Skipped
import CoverageReplay.Rust.Outline
import CoverageReplay.Rust.Rule
import CoverageReplay.Rust.Rules
import CoverageReplay.Rust.SourceFile
import CoverageReplay.Rust.Token
import CoverageReplay.Snapshots.Checkout
import CoverageReplay.Snapshots.Layout
import CoverageReplay.Snapshots.Manifest
import CoverageReplay.Snapshots.Write
import CoverageReplay.SortedMap
import CoverageReplay.TestOrder.Candidate
import CoverageReplay.TestOrder.Greedy
import CoverageReplay.TestOrder.Rank
import CoverageReplay.TestOrder.Strategy
import CoverageReplay.TestOrder.Table
import CoverageReplay.TestOrder.TestProfiles
import CoverageReplay.Text.Blank
import CoverageReplay.Text.CharRuns
import CoverageReplay.Text.IdentifierChar
import CoverageReplay.Text.Number
import CoverageReplay.Text.Printable
import CoverageReplay.Text.Quoted
import CoverageReplay.Text.Radix
import CoverageReplay.Text.Utf8
import CoverageReplay.Tree.Basic
import CoverageReplay.Tree.Identifiers
import CoverageReplay.Tree.LineHole
import CoverageReplay.Tree.LineIndex
import CoverageReplay.Tree.Lowering
import CoverageReplay.Tree.Splice
import CoverageReplay.Yaml.Cursor
import CoverageReplay.Yaml.Decode
import CoverageReplay.Yaml.Document
import CoverageReplay.Yaml.Node
import CoverageReplay.Yaml.Scalar
import CoverageReplay.Yaml.Token
import CoverageReplay.Yaml.Tokens
