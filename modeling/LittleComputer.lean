import LittleComputer.Word.Integer
import LittleComputer.Console.Tape
import LittleComputer.Machine.Panel
import LittleComputer.Folder
import LittleComputer.Text.Literal
import LittleComputer.Session
import LittleComputer.Installer
import LittleComputer.Terminal
import LittleComputer.Version
import LittleComputer.Main
import LittleComputer.Proofs.Numbers
import LittleComputer.Proofs.Numbers.Fields
import LittleComputer.Proofs.Numbers.Step
import LittleComputer.Proofs.Arithmetic
import LittleComputer.Proofs.Handling
import LittleComputer.Proofs.Exchange
import LittleComputer.Proofs.Simulation
import LittleComputer.Proofs.Recorder
import LittleComputer.Proofs.Keyboard
import LittleComputer.Proofs.Delivery
import LittleComputer.Proofs.Cells
import LittleComputer.Proofs.TypedLines
import LittleComputer.Proofs.LastResult
import LittleComputer.Proofs.Latest
import LittleComputer.Proofs.ExitStatus
import LittleComputer.Proofs.FrontEnds
import LittleComputer.Proofs.LastWrite
import LittleComputer.Proofs.Resuming
import LittleComputer.Proofs.ObjectFiles
import LittleComputer.Proofs.Overlay
import LittleComputer.Proofs.EndOfInput
import LittleComputer.Proofs.Feeding
import LittleComputer.Proofs.Output
import LittleComputer.Proofs.Faulting
import LittleComputer.Proofs.Printing
import LittleComputer.Proofs.Packing
import LittleComputer.Proofs.LineQueue
import LittleComputer.Proofs.Prompting
import LittleComputer.Proofs.Calls
import LittleComputer.Proofs.PrintingImage
import LittleComputer.Proofs.Polling
import LittleComputer.Proofs.Countdown
import LittleComputer.Proofs.Spacing
import LittleComputer.Proofs.Echoing
import LittleComputer.Proofs.Readout
import LittleComputer.Proofs.Installing
