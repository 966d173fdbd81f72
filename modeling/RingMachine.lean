import RingMachine.Cell.Type
import RingMachine.Cell.Layout
import RingMachine.Cell.Resolve
import RingMachine.Cli.Arguments
import RingMachine.Cli.Environment
import RingMachine.Cli.Run
import RingMachine.Text.Quoted
import RingMachine.Decimal.Shortest
import RingMachine.Machine.Basic
import RingMachine.Machine.Instruction
import RingMachine.Machine.Observer
import RingMachine.Machine.Report
import RingMachine.Machine.Step
import RingMachine.Machine.Setting
import RingMachine.Main
import RingMachine.Program.Token
import RingMachine.Proofs.Bounds
import RingMachine.Proofs.Run
import RingMachine.Proofs.Step
import RingMachine.Ring.Basic
import RingMachine.Ring.Operation
import RingMachine.Text.Integer
import RingMachine.Text.Literal
import RingMachine.Text.Printable
import RingMachine.Proofs.Status
import RingMachine.Proofs.Observers
import RingMachine.Proofs.Idle
import RingMachine.Proofs.Assemble
import RingMachine.Proofs.Instruction
import RingMachine.Proofs.Budget
import RingMachine.Proofs.Echo
import RingMachine.Proofs.Priority
import RingMachine.Proofs.CallOrder
import RingMachine.Proofs.Digits
import RingMachine.Proofs.Effects
import RingMachine.Proofs.ExitCode
import RingMachine.Proofs.Residue
import RingMachine.Proofs.Load
import RingMachine.Proofs.Grammar
import RingMachine.Proofs.Position
import RingMachine.Proofs.RingRequest
import RingMachine.Proofs.Registration
import RingMachine.Proofs.TraceWindow
