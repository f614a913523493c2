import PolicyCheck.Command.Invocation
import PolicyCheck.Command.Options
import PolicyCheck.Command.Run
import PolicyCheck.Command.Usage
import PolicyCheck.Datalog.Clause
import PolicyCheck.Datalog.LineSet
import PolicyCheck.Datalog.Policy
import PolicyCheck.Datalog.PreludeFile
import PolicyCheck.Datalog.Program
import PolicyCheck.Datalog.Record
import PolicyCheck.Datalog.Relation
import PolicyCheck.Definition.Basic
import PolicyCheck.Definition.OfJson
import PolicyCheck.Definition.OfYaml
import PolicyCheck.Dictionary
import PolicyCheck.Digest.Sha256
import PolicyCheck.Error
import PolicyCheck.Fact.Encoding
import PolicyCheck.Fact.Term
import PolicyCheck.Host.Basic
import PolicyCheck.Host.FilePath
import PolicyCheck.Host.FileTree
import PolicyCheck.Interpreter.File
import PolicyCheck.Interpreter.Run
import PolicyCheck.Interpreter.Settings
import PolicyCheck.Interpreter.Workspace
import PolicyCheck.Json.Basic
import PolicyCheck.Json.Path
import PolicyCheck.Json.Printer
import PolicyCheck.Json.Record
import PolicyCheck.Json.Syntax
import PolicyCheck.Main
import PolicyCheck.Number.Basic
import PolicyCheck.Number.Double
import PolicyCheck.Number.Shortest
import PolicyCheck.Proofs.Command.Agreement
import PolicyCheck.Proofs.Command.Course
import PolicyCheck.Proofs.Command.DocumentArgument
import PolicyCheck.Proofs.Command.Failure
import PolicyCheck.Proofs.Command.Verdict
import PolicyCheck.Proofs.Datalog.Attachment
import PolicyCheck.Proofs.Datalog.Clause
import PolicyCheck.Proofs.Datalog.DocumentRules
import PolicyCheck.Proofs.Datalog.Evaluation
import PolicyCheck.Proofs.Datalog.Isolation
import PolicyCheck.Proofs.Datalog.Program
import PolicyCheck.Proofs.Datalog.ProgramText
import PolicyCheck.Proofs.Datalog.Record
import PolicyCheck.Proofs.Datalog.Relation
import PolicyCheck.Proofs.Datalog.Removal
import PolicyCheck.Proofs.Datalog.Repository
import PolicyCheck.Proofs.Datalog.Rule
import PolicyCheck.Proofs.Datalog.Session
import PolicyCheck.Proofs.Definition.Walk
import PolicyCheck.Proofs.Dictionary
import PolicyCheck.Proofs.Except
import PolicyCheck.Proofs.Fact.Distinct
import PolicyCheck.Proofs.Fact.Leaf
import PolicyCheck.Proofs.Fact.Reading
import PolicyCheck.Proofs.Fact.Row
import PolicyCheck.Proofs.Fact.Visit
import PolicyCheck.Proofs.Fact.Walk
import PolicyCheck.Proofs.Host.Action
import PolicyCheck.Proofs.Host.Deposit
import PolicyCheck.Proofs.Host.FilePath
import PolicyCheck.Proofs.Host.FileTree
import PolicyCheck.Proofs.Host.Invariant
import PolicyCheck.Proofs.Host.Listing
import PolicyCheck.Proofs.Host.Matching
import PolicyCheck.Proofs.Host.Meets
import PolicyCheck.Proofs.Host.Place
import PolicyCheck.Proofs.Host.Renaming
import PolicyCheck.Proofs.Host.Spared
import PolicyCheck.Proofs.Interpreter.Deed
import PolicyCheck.Proofs.Interpreter.Exchange
import PolicyCheck.Proofs.Interpreter.FactFile
import PolicyCheck.Proofs.Interpreter.Invariant
import PolicyCheck.Proofs.Interpreter.Listing
import PolicyCheck.Proofs.Interpreter.Output
import PolicyCheck.Proofs.Interpreter.Removal
import PolicyCheck.Proofs.Interpreter.Report
import PolicyCheck.Proofs.Interpreter.Run
import PolicyCheck.Proofs.Interpreter.Submission
import PolicyCheck.Proofs.Interpreter.Workspace
import PolicyCheck.Proofs.Json.Leaf
import PolicyCheck.Proofs.Json.Lookup
import PolicyCheck.Proofs.Json.Printed
import PolicyCheck.Proofs.Json.Record
import PolicyCheck.Proofs.Number.Nearest
import PolicyCheck.Proofs.Number.Plain
import PolicyCheck.Proofs.Number.Zero
import PolicyCheck.Proofs.Pairs
import PolicyCheck.Proofs.Registry.Evaluation
import PolicyCheck.Proofs.Registry.History
import PolicyCheck.Proofs.Registry.Isolation
import PolicyCheck.Proofs.Registry.Lasting
import PolicyCheck.Proofs.Registry.Loading
import PolicyCheck.Proofs.Registry.Step
import PolicyCheck.Proofs.Report.Verdict
import PolicyCheck.Proofs.Schema.Agreement
import PolicyCheck.Proofs.Schema.Contribution
import PolicyCheck.Proofs.Schema.Declarations
import PolicyCheck.Proofs.Schema.Import
import PolicyCheck.Proofs.Schema.KeyedPivot
import PolicyCheck.Proofs.Schema.Outline
import PolicyCheck.Proofs.Schema.Pivot
import PolicyCheck.Proofs.Schema.RepositoryPivot
import PolicyCheck.Proofs.Schema.Row
import PolicyCheck.Proofs.Schema.RuleLine
import PolicyCheck.Proofs.Schema.Unsupported
import PolicyCheck.Proofs.Structural.Check
import PolicyCheck.Proofs.Structural.Compilation
import PolicyCheck.Proofs.Structural.Extension
import PolicyCheck.Proofs.Structural.Grammar
import PolicyCheck.Proofs.Structural.Integer
import PolicyCheck.Proofs.Structural.Meaning
import PolicyCheck.Proofs.Structural.OwnPolicy
import PolicyCheck.Proofs.Structural.Record
import PolicyCheck.Proofs.Text.Blank
import PolicyCheck.Proofs.Text.Lines
import PolicyCheck.Proofs.Text.Numeral
import PolicyCheck.Proofs.Text.Pieces
import PolicyCheck.Proofs.Text.Utf8
import PolicyCheck.Registry
import PolicyCheck.Report
import PolicyCheck.Schema.Basic
import PolicyCheck.Schema.File
import PolicyCheck.Schema.OfYaml
import PolicyCheck.Schema.Prelude
import PolicyCheck.Structural.Evaluation
import PolicyCheck.Structural.File
import PolicyCheck.Structural.Node
import PolicyCheck.Structural.OfYaml
import PolicyCheck.Structural.Policy
import PolicyCheck.Structural.Record
import PolicyCheck.Text.Blank
import PolicyCheck.Text.Hidden
import PolicyCheck.Text.Numeral
import PolicyCheck.Text.Pieces
import PolicyCheck.Text.Utf8
import PolicyCheck.Toml.Document
import PolicyCheck.Toml.Scalar
import PolicyCheck.Toml.Value
import PolicyCheck.Yaml.Cell
import PolicyCheck.Yaml.Document
import PolicyCheck.Yaml.Layout
import PolicyCheck.Yaml.Node
import PolicyCheck.Yaml.Record
import PolicyCheck.Yaml.Scalar
import PolicyCheck.Yaml.Tag
import PolicyCheck.Yaml.Token
import PolicyCheck.Yaml.Value
import PolicyCheck.Proofs.Schema.DeclarationLine
