import TreeScript.Command
import TreeScript.CommandLine
import TreeScript.Compiler
import TreeScript.Config
import TreeScript.Decimal.Shortest
import TreeScript.Diagnostics
import TreeScript.Document.Basic
import TreeScript.Document.Report
import TreeScript.Element
import TreeScript.Executable
import TreeScript.File.Access
import TreeScript.File.Error
import TreeScript.File.Path
import TreeScript.File.Tree
import TreeScript.Grammar.Basic
import TreeScript.Grammar.Declaration
import TreeScript.Grammar.Resolver
import TreeScript.Grammar.Standard
import TreeScript.Grammar.Validation
import TreeScript.Instruction
import TreeScript.Json.Fault
import TreeScript.Json.Number
import TreeScript.Json.Reader
import TreeScript.Json.Skip
import TreeScript.Json.Token
import TreeScript.Json.Value
import TreeScript.Lowering.Construct
import TreeScript.Lowering.Fault
import TreeScript.Lowering.Header
import TreeScript.Lowering.State
import TreeScript.Lowering.Step
import TreeScript.Lowering.Value
import TreeScript.Main
import TreeScript.Node
import TreeScript.Proofs.Artifacts
import TreeScript.Proofs.Compile
import TreeScript.Proofs.Concatenation
import TreeScript.Proofs.Conformance
import TreeScript.Proofs.Declarations
import TreeScript.Proofs.Delivery
import TreeScript.Proofs.Documents
import TreeScript.Proofs.Emission
import TreeScript.Proofs.Exposure
import TreeScript.Proofs.Files
import TreeScript.Proofs.Gate
import TreeScript.Proofs.Growth
import TreeScript.Proofs.Header
import TreeScript.Proofs.JsonShapes
import TreeScript.Proofs.JsonTexts
import TreeScript.Proofs.Jumps
import TreeScript.Proofs.LabelOrders
import TreeScript.Proofs.LabelReports
import TreeScript.Proofs.Linking
import TreeScript.Proofs.Listing
import TreeScript.Proofs.Lowering
import TreeScript.Proofs.Offsets
import TreeScript.Proofs.Places
import TreeScript.Proofs.Positions
import TreeScript.Proofs.Precedence
import TreeScript.Proofs.Program
import TreeScript.Proofs.Relaxation
import TreeScript.Proofs.Remarks
import TreeScript.Proofs.Reports
import TreeScript.Proofs.Resolution
import TreeScript.Proofs.Resolvers
import TreeScript.Proofs.Run
import TreeScript.Proofs.Scopes
import TreeScript.Proofs.Sessions
import TreeScript.Proofs.SortedMap
import TreeScript.Proofs.StandardGrammar
import TreeScript.Proofs.Targets
import TreeScript.Proofs.TextLines
import TreeScript.Proofs.TrailTexts
import TreeScript.Proofs.Trails
import TreeScript.Proofs.Translation
import TreeScript.Proofs.Unambiguous
import TreeScript.Proofs.Variants
import TreeScript.Proofs.Versions
import TreeScript.Proofs.Violations
import TreeScript.Proofs.Walks
import TreeScript.Proofs.WellFormed
import TreeScript.SortedMap
import TreeScript.Text.Blank
import TreeScript.Text.Hidden
import TreeScript.Text.Lines
import TreeScript.Text.Quoted
import TreeScript.Text.Ranges
import TreeScript.Text.Reader
import TreeScript.Text.Width
import TreeScript.Toml.DateTime
import TreeScript.Toml.Decode
import TreeScript.Toml.Digits
import TreeScript.Toml.Quoted
import TreeScript.Toml.Reader
import TreeScript.Toml.Scalar
import TreeScript.Toml.Value
import TreeScript.Version
