import Stepwise.Assoc
import Stepwise.Number.Binary
import Stepwise.Number.Shortest
import Stepwise.Number.Layout
import Stepwise.Number.Reader
import Stepwise.Text.Blank
import Stepwise.Text.Case
import Stepwise.Text.Quoted
import Stepwise.Text.Split
import Stepwise.Text.Escape
import Stepwise.Json.Basic
import Stepwise.Json.Printer
import Stepwise.Json.Parser
import Stepwise.Value.Basic
import Stepwise.Value.Tagged
import Stepwise.Fault
import Stepwise.Script.Basic
import Stepwise.Value.Operation
import Stepwise.Builtin.Apply
import Stepwise.Xml.Element
import Stepwise.Script.Path
import Stepwise.Web
import Stepwise.Eval
import Stepwise.Assign
import Stepwise.Script.Encode
import Stepwise.Script.Decode
import Stepwise.Digest
import Stepwise.Script.Linked
import Stepwise.Script.Walk
import Stepwise.Program.Basic
import Stepwise.Program.Link
import Stepwise.Delay
import Stepwise.Machine.Frame
import Stepwise.Machine.Statement
import Stepwise.Machine.Basic
import Stepwise.Machine.Unwind
import Stepwise.Machine.Tick
import Stepwise.Machine.Run
import Stepwise.Session
import Stepwise.Toml.Basic
import Stepwise.Toml.Scan
import Stepwise.Toml.Number
import Stepwise.Toml.Document
import Stepwise.Text.Alphanumeric
import Stepwise.Canned
import Stepwise.Config.Value
import Stepwise.Config.EnvFile
import Stepwise.Files
import Stepwise.Config.Load
import Stepwise.Cli.Args
import Stepwise.Cli.Help
import Stepwise.Cli.Job
import Stepwise.Cli.Launch
import Stepwise.Main
import Stepwise.Proofs.BigStep
import Stepwise.Proofs.Leads
import Stepwise.Proofs.Simulation.Basic
import Stepwise.Proofs.Simulation.Evaluation
import Stepwise.Proofs.Path
import Stepwise.Proofs.Execute
import Stepwise.Proofs.Moves
import Stepwise.Proofs.Placement
import Stepwise.Proofs.Reachable
import Stepwise.Proofs.Simulation.Statement
import Stepwise.Proofs.Simulation.Handler
import Stepwise.Proofs.Simulation.Simple
import Stepwise.Proofs.Refinement
import Stepwise.Proofs.Canonical
import Stepwise.Proofs.Asking
import Stepwise.Proofs.Assoc
import Stepwise.Proofs.Linking
import Stepwise.Proofs.Safety
import Stepwise.Proofs.Direct
import Stepwise.Proofs.Replay
import Stepwise.Proofs.Driving
import Stepwise.Proofs.Pausing
import Stepwise.Proofs.Constants
import Stepwise.Proofs.Breakpoints
import Stepwise.Proofs.CallTree
import Stepwise.Proofs.Deciders
import Stepwise.Proofs.Evaluating
import Stepwise.Proofs.ReplayLists
import Stepwise.Proofs.Provenance
import Stepwise.Proofs.Ticked
import Stepwise.Proofs.Nesting
import Stepwise.Proofs.Parameters
import Stepwise.Proofs.Subroutines
import Stepwise.Proofs.JumpCheck
import Stepwise.Proofs.Freshness
import Stepwise.Proofs.Ending
import Stepwise.Proofs.Cancellation
import Stepwise.Proofs.Work
import Stepwise.Proofs.Termination
import Stepwise.Proofs.Trees
import Stepwise.Proofs.Codec
import Stepwise.Proofs.StackDepth
import Stepwise.Proofs.Unwinding
import Stepwise.Proofs.PausePoints
import Stepwise.Proofs.CancelledCalls
import Stepwise.Proofs.Doubles
import Stepwise.Proofs.Lens
import Stepwise.Proofs.FailedWrites
import Stepwise.Proofs.DocumentOrder
import Stepwise.Proofs.LabelTables
import Stepwise.Proofs.Heights
import Stepwise.Proofs.RetryBudget
import Stepwise.Proofs.FirstElements
import Stepwise.Proofs.Comments
import Stepwise.Proofs.JsonText
import Stepwise.Proofs.MissingOutputs
import Stepwise.Proofs.Escapes
import Stepwise.Proofs.Splitting
import Stepwise.Proofs.TaggedValues
import Stepwise.Proofs.KeyOrder
import Stepwise.Proofs.OrderedRuns
