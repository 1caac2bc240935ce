import Chip8.Instruction.Encoding
import Chip8.Machine.History
import Chip8.Main
import Chip8.Proofs.Checked.Machine
import Chip8.Proofs.Clock.Drift
import Chip8.Proofs.Console.Pictures
import Chip8.Proofs.Cpu.Arithmetic
import Chip8.Proofs.Cpu.DrawSprite
import Chip8.Proofs.Display.FullOutput
import Chip8.Proofs.Error.Messages
import Chip8.Proofs.Instruction.Assembly
import Chip8.Proofs.Instruction.Forms
import Chip8.Proofs.Machine.AddressRange
import Chip8.Proofs.Machine.Calls
import Chip8.Proofs.Machine.Channels
import Chip8.Proofs.Machine.Fault
import Chip8.Proofs.Machine.Frames
import Chip8.Proofs.Machine.HeldKeys
import Chip8.Proofs.Machine.KeyWait
import Chip8.Proofs.Machine.LastWriter
import Chip8.Proofs.Machine.LogRecord
import Chip8.Proofs.Machine.RandomStream
import Chip8.Proofs.Machine.Timers
import Chip8.Proofs.Machine.Transfers
import Chip8.Proofs.Memory.Accesses
import Chip8.Proofs.Screen.Overlay
import Chip8.Proofs.Settings.CommandLine
import Chip8.Proofs.Settings.ConfigFile
import Chip8.Proofs.Settings.Resolution
import Chip8.Proofs.Sound.Buffers
import Chip8.Settings.FileTree
import Chip8.Sound.SquareWave
import Chip8.Proofs.Log.Lines
