/-
What a debugger and the monitor say to each other: commands one way, events the other. The texts are the ones a log
shows.
-/
import Chip8.Fault

namespace Chip8

/-- what a debugger asks for -/
inductive Command where
  | setBreakpoint (addr : UInt16)
  | clearBreakpoint (addr : UInt16)
  | pause
  | resume
  | step
  deriving DecidableEq, Repr

def Command.text : Command → String
  | setBreakpoint addr => "SetBreakpoint(" ++ Nat.repr addr.toNat ++ ")"
  | clearBreakpoint addr => "ClearBreakpoint(" ++ Nat.repr addr.toNat ++ ")"
  | pause => "Pause"
  | resume => "Resume"
  | step => "Step"

/-- what the monitor reports -/
inductive Event where
  | paused (pc : UInt16)
  | fault (pc : UInt16) (fault : Fault)
  deriving DecidableEq, Repr

def Event.text : Event → String
  | paused pc => "Paused \x7b pc: " ++ Nat.repr pc.toNat ++ " \x7d"
  | fault pc f => "Fault \x7b pc: " ++ Nat.repr pc.toNat ++ ", error: " ++ f.fields ++ " \x7d"

end Chip8
