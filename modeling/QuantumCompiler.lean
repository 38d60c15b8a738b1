import QuantumCompiler.Backend.Annealer
import QuantumCompiler.Backend.Compiled
import QuantumCompiler.Backend.Native
import QuantumCompiler.Backend.Qmi
import QuantumCompiler.CommandLine.Arguments
import QuantumCompiler.CommandLine.Report
import QuantumCompiler.CommandLine.Run
import QuantumCompiler.Decimal.Binary
import QuantumCompiler.Decimal.Layout
import QuantumCompiler.Decimal.Reader
import QuantumCompiler.Decimal.Shortest
import QuantumCompiler.Fault
import QuantumCompiler.Host.Builtin
import QuantumCompiler.Host.Plugin
import QuantumCompiler.Host.Registry
import QuantumCompiler.Instruction.Basic
import QuantumCompiler.Instruction.Kind
import QuantumCompiler.Instruction.Registry
import QuantumCompiler.Json.Basic
import QuantumCompiler.Json.Compiled
import QuantumCompiler.Json.Parser
import QuantumCompiler.Json.Printer
import QuantumCompiler.Main
import QuantumCompiler.Program.Basic
import QuantumCompiler.Program.Limits
import QuantumCompiler.Program.Parser
import QuantumCompiler.Settings.Basic
import QuantumCompiler.Settings.Loading
import QuantumCompiler.Settings.Printer
import QuantumCompiler.Settings.Reader
import QuantumCompiler.Storage
import QuantumCompiler.Table
import QuantumCompiler.Text.Blank
import QuantumCompiler.Text.Hidden
import QuantumCompiler.Text.Numeral
import QuantumCompiler.Yaml.Cursor
import QuantumCompiler.Yaml.Directive
import QuantumCompiler.Yaml.Literal
import QuantumCompiler.Yaml.Node
import QuantumCompiler.Yaml.Printer
import QuantumCompiler.Yaml.Scalar
import QuantumCompiler.Yaml.Token
import QuantumCompiler.Proofs.Decimal.Bits
import QuantumCompiler.Proofs.Text.Numeral
import QuantumCompiler.Proofs.Text.Pieces
import QuantumCompiler.Proofs.Text.Words
import QuantumCompiler.Proofs.Decimal.ReadBack
import QuantumCompiler.Proofs.Instruction
import QuantumCompiler.Proofs.Program.Line
import QuantumCompiler.Proofs.Program.RoundTrip
import QuantumCompiler.Proofs.Backend.Outcome
import QuantumCompiler.Proofs.Circuit.Operator
import QuantumCompiler.Proofs.Circuit.Lowering
import QuantumCompiler.Proofs.Host.Registry
import QuantumCompiler.Proofs.Host.Run
import QuantumCompiler.Proofs.Host.Rollback
import QuantumCompiler.Proofs.Host.Unload
import QuantumCompiler.Proofs.Host.Default
import QuantumCompiler.Proofs.Host.Ledger
import QuantumCompiler.Proofs.Host.Ownership
import QuantumCompiler.Proofs.Program.Grammar
import QuantumCompiler.Proofs.Host.UnloadOrder
import QuantumCompiler.Proofs.Program.Remap
import QuantumCompiler.Proofs.Program.Workbench
import QuantumCompiler.Proofs.Instruction.History
import QuantumCompiler.Proofs.Program.Limits
import QuantumCompiler.Proofs.Backend.Parsed
import QuantumCompiler.Proofs.Program.Concat
import QuantumCompiler.Proofs.Backend.Ising
import QuantumCompiler.Proofs.Host.Startup
import QuantumCompiler.Proofs.Backend.Concat
import QuantumCompiler.Proofs.Program.Relabel
import QuantumCompiler.Proofs.Backend.Recipe
import QuantumCompiler.Proofs.Backend.Equivariance
import QuantumCompiler.Proofs.Backend.Budget
import QuantumCompiler.Proofs.Decimal.SixPlaces
import QuantumCompiler.Proofs.Backend.Listing
import QuantumCompiler.Proofs.Backend.Location
import QuantumCompiler.Proofs.CommandLine.Phrases
import QuantumCompiler.Proofs.Json.ReadBack
import QuantumCompiler.Proofs.CommandLine.Output
import QuantumCompiler.Proofs.Program.Names
import QuantumCompiler.Proofs.Program.Layout
import QuantumCompiler.Proofs.Instruction.Checks
