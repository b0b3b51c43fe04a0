import ChipEight.Main
import ChipEight.History
import ChipEight.Proofs.Execution
import ChipEight.Machine.Operation
import ChipEight.Machine.Event
import ChipEight.Proofs.Refusal
import ChipEight.Proofs.Bounds
import ChipEight.Machine.Trace
import ChipEight.Proofs.Calls
import ChipEight.Proofs.PowerOn
import ChipEight.Proofs.Loading
import ChipEight.Proofs.RealTime
import ChipEight.Proofs.TickMoments
import ChipEight.Proofs.Beep
import ChipEight.Proofs.KeyOrder
import ChipEight.Proofs.Marks
import ChipEight.Proofs.Painting
import ChipEight.Host.Transcript
import ChipEight.Host.Operation
import ChipEight.Proofs.FrameText
import ChipEight.Proofs.Display
import ChipEight.Proofs.Batches
import ChipEight.Console.KeyEvent
import ChipEight.Proofs.KeyTiming
import ChipEight.Proofs.Transcript
import ChipEight.Proofs.Pixels
import ChipEight.Proofs.Redrawing
import ChipEight.Instruction.Table
import ChipEight.Proofs.Words
import ChipEight.Proofs.ControlFlow
import ChipEight.Proofs.Arithmetic
import ChipEight.Proofs.Footprint
import ChipEight.Proofs.Transfer
import ChipEight.Proofs.Countdown
import ChipEight.Proofs.Waiting
import ChipEight.Proofs.SingleFrames
import ChipEight.Proofs.CheckedAccess
import ChipEight.Proofs.RandomBytes
import ChipEight.Proofs.Records
import ChipEight.Proofs.KeyWords
import ChipEight.Proofs.Pacing
import ChipEight.Proofs.Dialects
import ChipEight.Proofs.TimeFree
import ChipEight.Proofs.Turns
import ChipEight.Proofs.Sessions
