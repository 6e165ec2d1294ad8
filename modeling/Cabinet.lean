import Cabinet.Disk.Tree
import Cabinet.Main
import Cabinet.Proofs.Board.History
import Cabinet.Proofs.Checksum.Window
import Cabinet.Proofs.FrameCounter.Frames
import Cabinet.Proofs.Launcher.Complete
import Cabinet.Proofs.Launcher.Images
import Cabinet.Proofs.Launcher.Options
import Cabinet.Proofs.Machine.Budget
import Cabinet.Proofs.Machine.Cycles
import Cabinet.Proofs.Machine.Halt
import Cabinet.Proofs.Machine.Inputs
import Cabinet.Proofs.Machine.Interrupts
import Cabinet.Proofs.Machine.Reset
import Cabinet.Proofs.Machine.Strips
import Cabinet.Proofs.Memory.Loads
import Cabinet.Proofs.Picture.Reading
import Cabinet.Proofs.Picture.Strokes
import Cabinet.Proofs.Rom.Sources
import Cabinet.Proofs.Session.Driving
import Cabinet.Proofs.Session.Held
import Cabinet.Proofs.Session.Soundness
import Cabinet.Proofs.Session.Window
import Cabinet.Proofs.System.Binary
import Cabinet.Proofs.System.Decimal
import Cabinet.Proofs.System.Effects
import Cabinet.Proofs.System.Locality
import Cabinet.Proofs.System.Routine
import Cabinet.Proofs.System.Shifts
import Cabinet.Proofs.Window.Protocol
import Cabinet.Session.Window
