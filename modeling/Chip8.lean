import Chip8.Main
import Chip8.Monitor.Session
import Chip8.Proofs.AddressBounds
import Chip8.Proofs.CallReturn
import Chip8.Proofs.Interpreter.FaultReports
import Chip8.Proofs.Interpreter.Frames
import Chip8.Proofs.Interpreter.PauseEvents
import Chip8.Proofs.Interpreter.Stuck
import Chip8.Proofs.Interpreter.Transparency
import Chip8.Proofs.LastWriter
import Chip8.Proofs.Monitor.Exemption
import Chip8.Proofs.Monitor.PauseOrder
import Chip8.Proofs.Interpreter.Safety
import Chip8.Proofs.Timer.Restart
import Chip8.Proofs.Timer.Serial
import Chip8.Proofs.Timer.Tone
import Chip8.Screen.Bitplane
import Chip8.Proofs.Screen.Grid
import Chip8.Proofs.Screen.Sprite
import Chip8.Proofs.Drawing
import Chip8.Proofs.AfterFault
import Chip8.Proofs.Screen.Plot
import Chip8.Proofs.Screen.SpriteAlgebra
import Chip8.Proofs.FlagArithmetic
import Chip8.Proofs.Interpreter.FaultSites
import Chip8.Proofs.Interpreter.KeyWait
import Chip8.Proofs.RoundTrip
import Chip8.Proofs.DecimalStore
import Chip8.Proofs.BeeperEdges
import Chip8.Proofs.Timer.Trace
import Chip8.Proofs.Interpreter.Resume
import Chip8.Proofs.AddressText
import Chip8.Proofs.ProgramLoading
import Chip8.Proofs.Screen.PlaneWalk
import Chip8.Proofs.RangeCheck
import Chip8.Proofs.BoundedStack
import Chip8.Proofs.Interpreter.FaultRepeats
