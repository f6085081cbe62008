import ChipEight.Host.Rounds
import ChipEight.Instruction.Checked
import ChipEight.Listing.Columns
import ChipEight.Machine.Checked
import ChipEight.Machine.Transcript
import ChipEight.Main
import ChipEight.Proofs.CallStack.BoundedList
import ChipEight.Proofs.Frame.Coverage
import ChipEight.Proofs.Host.Run
import ChipEight.Proofs.Host.Splitting
import ChipEight.Proofs.Host.StepBack
import ChipEight.Proofs.Host.Stopping
import ChipEight.Proofs.Host.Timers
import ChipEight.Proofs.Instruction.Arithmetic
import ChipEight.Proofs.Instruction.Checked
import ChipEight.Proofs.Instruction.ControlFlow
import ChipEight.Proofs.Instruction.Disassembly
import ChipEight.Proofs.Instruction.Draw
import ChipEight.Proofs.Instruction.Effect
import ChipEight.Proofs.Instruction.Failure
import ChipEight.Proofs.Instruction.Footprint
import ChipEight.Proofs.Instruction.Strokes
import ChipEight.Proofs.Instruction.Transfer
import ChipEight.Proofs.Listing.Execution
import ChipEight.Proofs.Listing.Lossless
import ChipEight.Proofs.Machine.Bounds
import ChipEight.Proofs.Machine.Channel
import ChipEight.Proofs.Machine.DrawFlag
import ChipEight.Proofs.Machine.Faulting
import ChipEight.Proofs.Machine.Halt
import ChipEight.Proofs.Machine.Index
import ChipEight.Proofs.Machine.Load
import ChipEight.Proofs.Machine.Lookahead
import ChipEight.Proofs.Machine.Nesting
import ChipEight.Proofs.Machine.Picture
import ChipEight.Proofs.Machine.Progress
import ChipEight.Proofs.Machine.Stall
import ChipEight.Proofs.Machine.Stores
import ChipEight.Proofs.Machine.Transition
import ChipEight.Proofs.Machine.Undo
import ChipEight.Proofs.Machine.Veil
import ChipEight.Proofs.Memory.ByteMap
import ChipEight.Proofs.Frame.Rendering
import ChipEight.Proofs.Keypad.Holding
import ChipEight.Proofs.Shell.Failures
import ChipEight.Proofs.Host.Ticks
import ChipEight.Proofs.Fault.Messages
