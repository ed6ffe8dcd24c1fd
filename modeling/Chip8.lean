import Chip8.Instruction.Encoding
import Chip8.Machine.Journal
import Chip8.Machine.Run
import Chip8.Main
import Chip8.Window
import Chip8.Proofs.Execution
import Chip8.Proofs.Picture
import Chip8.Proofs.State
import Chip8.Proofs.Refinement
import Chip8.Proofs.Reachable
import Chip8.Proofs.Bounds
import Chip8.Proofs.History
import Chip8.Proofs.VisibleRows
import Chip8.Proofs.FaultConditions
import Chip8.Proofs.Checked
import Chip8.Proofs.CheckedPicture
import Chip8.Proofs.Drawings
import Chip8.Proofs.Total
import Chip8.Proofs.Halted
import Chip8.Proofs.KeyWait
import Chip8.Proofs.Stepping
import Chip8.Proofs.Nesting
import Chip8.Proofs.Reset
import Chip8.Proofs.Turns
import Chip8.Proofs.WakeUp
import Chip8.Proofs.Spending
import Chip8.Proofs.Stopping
import Chip8.Proofs.Leniency
import Chip8.Proofs.FontTable
import Chip8.Proofs.ShutDown
import Chip8.Proofs.Drivers
import Chip8.Proofs.Suspension
import Chip8.Proofs.TickPlacement
import Chip8.Proofs.Modes
import Chip8.Proofs.StuckKeys
import Chip8.Proofs.Leftover
import Chip8.Proofs.CatchUp
import Chip8.Proofs.WaitingCalls
import Chip8.Proofs.MemoryAccess
import Chip8.Proofs.Listings
import Chip8.Proofs.RandomLoads
import Chip8.Proofs.Settings
import Chip8.Proofs.Assembly
import Chip8.Proofs.CommandEffects
import Chip8.Proofs.Repeating
import Chip8.Proofs.TargetNames
import Chip8.Proofs.KeyHolds
import Chip8.Proofs.Dumps
import Chip8.Proofs.DisplayRows
import Chip8.Proofs.CommandSpellings
