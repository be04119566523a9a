import Mos6502.Hexadecimal
import Mos6502.HexDump
import Mos6502.Register
import Mos6502.Flag
import Mos6502.Registers
import Mos6502.SetupError
import Mos6502.Time
import Mos6502.Memory.Bus
import Mos6502.Memory.Flat
import Mos6502.Memory.Recorded
import Mos6502.Memory.WriteProtected
import Mos6502.Addressing.Mode
import Mos6502.Addressing.Operand
import Mos6502.Instruction.Operation
import Mos6502.Instruction.Basic
import Mos6502.Instruction.Set
import Mos6502.Instruction.Standard
import Mos6502.Disassembly
import Mos6502.Snapshot
import Mos6502.Journal.Event
import Mos6502.Journal.Basic
import Mos6502.Host
import Mos6502.Machine.Basic
import Mos6502.Machine.Execute
import Mos6502.Processor.Fault
import Mos6502.Processor.Record
import Mos6502.Processor.Basic
import Mos6502.Processor.Step
import Mos6502.Processor.Budget
import Mos6502.Processor.Paced
import Mos6502.Clock.Fault
import Mos6502.Clock.Pace
import Mos6502.Clock.Grid
import Mos6502.Clock.Record
import Mos6502.Clock.Basic
import Mos6502.Clock.Session
import Mos6502.Clock.Run
import Mos6502.Clock.Script
import Mos6502.Proofs.Registers.Status
import Mos6502.Proofs.Text.Reader
import Mos6502.Proofs.HexDump
import Mos6502.Proofs.Snapshot
import Mos6502.Proofs.Instruction.Table
import Mos6502.Proofs.Instruction.Registration
import Mos6502.Proofs.Machine.Flat
import Mos6502.Proofs.Machine.Reference
import Mos6502.Proofs.Memory.Readable
import Mos6502.Proofs.Memory.Mirrored
import Mos6502.Proofs.Memory.Lawful
import Mos6502.Proofs.Memory.Number
import Mos6502.Proofs.Machine.Mirrored
import Mos6502.Proofs.Machine.Residue
import Mos6502.Proofs.Addressing.Wrapping
import Mos6502.Proofs.Memory.Traffic
import Mos6502.Proofs.Machine.Traffic
import Mos6502.Proofs.Processor.Reference
import Mos6502.Proofs.Clock.Calls
import Mos6502.Proofs.Clock.Pace
import Mos6502.Proofs.Clock.Reached
import Mos6502.Proofs.Clock.Stopping
import Mos6502.Proofs.Processor.Paced
import Mos6502.Proofs.Processor.PacedSteps
import Mos6502.Proofs.Processor.Halted
import Mos6502.Proofs.Processor.Mirrored
import Mos6502.Proofs.Processor.Lockstep
import Mos6502.Proofs.Processor.Flat
import Mos6502.Proofs.Processor.ProgramCounter
import Mos6502.Proofs.Processor.Absolute
import Mos6502.Proofs.Clock.CallStack
import Mos6502.Proofs.Clock.Started
import Mos6502.Proofs.Clock.Replies
import Mos6502.Proofs.Processor.Addition
import Mos6502.Proofs.Clock.Armed
import Mos6502.Proofs.Processor.ArmedClock
import Mos6502.Proofs.Clock.Conduct
import Mos6502.Proofs.Memory.Image
import Mos6502.Proofs.Processor.Simulation
import Mos6502.Proofs.Processor.Restored
import Mos6502.Proofs.Clock.Deadline
import Mos6502.Proofs.Clock.CurrentRun
import Mos6502.Proofs.Clock.Schedule
import Mos6502.Proofs.Clock.Frequency
import Mos6502.Proofs.Clock.Shadow
import Mos6502.Proofs.Processor.Finished
import Mos6502.Proofs.Machine.Unowned
import Mos6502.Proofs.Processor.Stepped
import Mos6502.Proofs.Processor.Traffic
import Mos6502.Proofs.Processor.Budget
import Mos6502.Proofs.Processor.Returning
import Mos6502.Proofs.Processor.Composed
import Mos6502.Proofs.Clock.Overdue
import Mos6502.Proofs.Clock.Projection
import Mos6502.Proofs.Clock.Passage
import Mos6502.Proofs.Processor.Listed
import Mos6502.Proofs.Processor.Account
import Mos6502.Proofs.Processor.StoppingQuestion
import Mos6502.Proofs.Memory.Loading
import Mos6502.Proofs.Processor.Unfetched
import Mos6502.Proofs.Clock.History
import Mos6502.Proofs.Addressing.OperandField
import Mos6502.Proofs.Disassembly
import Mos6502.Proofs.Machine.Readable
import Mos6502.Proofs.Processor.TraceLine
import Mos6502.Proofs.Registers.Text
import Mos6502.Proofs.HexDump.ChangedRows
import Mos6502.Proofs.Registers.SeparateFlags
import Mos6502.Proofs.Clock.NominalRate
import Mos6502.Proofs.Machine.OperandUses
import Mos6502.Proofs.Processor.Kept
import Mos6502.Proofs.Processor.OperandUses
