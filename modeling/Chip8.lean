import Chip8.Dispatch
import Chip8.Machine.Access
import Chip8.Machine.Dump
import Chip8.Main
import Chip8.Session.Command
import Chip8.Showcase
import Chip8.Proofs.Instruction.Rows
import Chip8.Proofs.Machine.Fetch
import Chip8.Proofs.Machine.Atomic
import Chip8.Proofs.Machine.Writes
import Chip8.Proofs.Machine.InRange
import Chip8.Proofs.Session.StepEnds
import Chip8.Proofs.Machine.Dump
import Chip8.Proofs.Session.History
import Chip8.Proofs.Session.InRange
import Chip8.Proofs.Machine.Faults
import Chip8.Proofs.Session.KeyWait
import Chip8.Proofs.Session.Faults
import Chip8.Proofs.Session.CycleLog
import Chip8.Proofs.Session.Nesting
import Chip8.Proofs.Session.Budget
import Chip8.Proofs.Session.CallStack
import Chip8.Proofs.Session.RunState
import Chip8.Proofs.Session.Untraced
import Chip8.Proofs.Session.Trace
import Chip8.Proofs.Session.Calls
import Chip8.Proofs.Session.Execute
import Chip8.Proofs.Session.Twin
import Chip8.Proofs.Session.Variants
import Chip8.Proofs.Session.Interleaving
import Chip8.Proofs.Session.Timer
import Chip8.Proofs.Machine.Boot
import Chip8.Proofs.Program.Image
import Chip8.Proofs.Session.Chance
import Chip8.Proofs.Session.UnknownWords
import Chip8.Proofs.Session.Addresses
import Chip8.Proofs.Session.Keys
import Chip8.Proofs.Session.Refusals
import Chip8.Proofs.Screen.Sprite
import Chip8.Proofs.Machine.Drawing
import Chip8.Proofs.Text.Words
import Chip8.Proofs.Text.Numeral
import Chip8.Proofs.Program.Words
import Chip8.Proofs.Session.Retold
import Chip8.Proofs.Session.Reload
import Chip8.Proofs.Session.Frames
import Chip8.Proofs.CommandLine.Arguments
import Chip8.Proofs.CommandLine.Play
import Chip8.Proofs.CommandLine.Verdict
import Chip8.Proofs.Showcase
import Chip8.Proofs.Machine.Arithmetic
import Chip8.Proofs.Machine.Transfer
import Chip8.Proofs.Machine.Redrawing
import Chip8.Proofs.Session.ControlFlow
import Chip8.Proofs.Instruction.Patterns
import Chip8.Proofs.Program.Joined
import Chip8.Proofs.Screen.Picture
import Chip8.Proofs.Screen.Glyphs
import Chip8.Proofs.Session.Waits
import Chip8.Proofs.Program.Sketch
import Chip8.Proofs.Session.Sketched
import Chip8.Proofs.Program.Bundled
import Chip8.Proofs.Machine.Windows
import Chip8.Proofs.Dispatch
