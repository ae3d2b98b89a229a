/-
Everything that can go wrong in the machine and around it. A program too large to load and trouble with a device end a
run; all other faults are reported and the run goes on (`Fault.recoverable`).

A fault is an answer. A `Panic` is none: arithmetic or an index is out of its bounds, and that brings everything down.

Work on a state is interrupted by a fault, and what was done until then stays done (`run_bind_of_error`).
-/
import Chip8.Text.Quoted

namespace Chip8

open Chip8.Text

/-- what went wrong; addresses and indices of any size, since they may come from outside -/
inductive Fault where
  | programTooLarge (len max : Nat)
  | invalidOpcode (opcode addr : UInt16)
  | stackOverflow (pc : UInt16)
  | stackUnderflow (pc : UInt16)
  | outOfBounds (addr : Nat)
  | noSuchRegister (reg : Nat)
  | noSuchKey (key : UInt8)
  | io (text : String)
  deriving DecidableEq, Repr

namespace Fault

def message : Fault → String
  | programTooLarge len max =>
    "program is " ++ Nat.repr len ++ " bytes, only " ++ Nat.repr max ++ " bytes fit above 0x200"
  | invalidOpcode opcode addr =>
    "invalid opcode 0x" ++ Hex.lower 4 opcode.toNat ++ " at 0x" ++ Hex.lower 4 addr.toNat
  | stackOverflow pc => "stack overflow calling from 0x" ++ Hex.lower 4 pc.toNat
  | stackUnderflow pc => "stack underflow returning from 0x" ++ Hex.lower 4 pc.toNat
  | outOfBounds addr => "address 0x" ++ Hex.lower 4 addr ++ " is outside of memory"
  | noSuchRegister reg => "register V" ++ Hex.upper reg ++ " does not exist"
  | noSuchKey key => "key 0x" ++ Hex.lower 2 key.toNat ++ " is not on the keypad"
  | io text => "io error: " ++ text

/-- may a run go on after this fault? -/
def recoverable : Fault → Bool
  | programTooLarge _ _ | io _ => false
  | _ => true

/-- the fault with its fields, in decimal, for a log that shows the structure -/
def fields : Fault → String
  | programTooLarge len max => "ProgramTooLarge \x7b len: " ++ Nat.repr len ++ ", max: " ++ Nat.repr max ++ " \x7d"
  | invalidOpcode opcode addr =>
    "InvalidOpcode \x7b opcode: " ++ Nat.repr opcode.toNat ++ ", addr: " ++ Nat.repr addr.toNat ++ " \x7d"
  | stackOverflow pc => "StackOverflow \x7b pc: " ++ Nat.repr pc.toNat ++ " \x7d"
  | stackUnderflow pc => "StackUnderflow \x7b pc: " ++ Nat.repr pc.toNat ++ " \x7d"
  | outOfBounds addr => "OutOfBoundsAddress \x7b addr: " ++ Nat.repr addr ++ " \x7d"
  | noSuchRegister reg => "InvalidRegister(" ++ Nat.repr reg ++ ")"
  | noSuchKey key => "InvalidKey(" ++ Nat.repr key.toNat ++ ")"
  | io text => "Io(Custom \x7b kind: Other, error: " ++ quoted text ++ " \x7d)"

end Fault

/-- what brings everything down -/
inductive Panic where
  | addOverflow
  | sliceOrder (start stop : Nat)
  | sliceEnd (stop len : Nat)
  deriving DecidableEq, Repr

def Panic.message : Panic → String
  | addOverflow => "attempt to add with overflow"
  | sliceOrder start stop => "slice index starts at " ++ Nat.repr start ++ " but ends at " ++ Nat.repr stop
  | sliceEnd stop len =>
    "range end index " ++ Nat.repr stop ++ " out of range for slice of length " ++ Nat.repr len

/-! ## Work that a fault interrupts -/

section

variable {ε σ α β : Type} {μ : Type → Type} [Monad μ] [LawfulMonad μ]
variable {x : ExceptT ε (StateT σ μ) α} {next : α → ExceptT ε (StateT σ μ) β} {s s' : σ}

/-- the steps after one that has gone well -/
theorem run_bind_of_ok {a : α} (h : x.run.run s = pure (.ok a, s')) :
    (x >>= next).run.run s = (next a).run.run s' := by
  rw [ExceptT.run_bind, StateT.run_bind, h, pure_bind]

/-- the steps after one that has failed are left out -/
theorem run_bind_of_error {e : ε} (h : x.run.run s = pure (.error e, s')) :
    (x >>= next).run.run s = pure (.error e, s') := by
  rw [ExceptT.run_bind, StateT.run_bind, h, pure_bind]
  rfl

end

end Chip8
