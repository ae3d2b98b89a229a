/-
The player's side of a run on a terminal that hands over whole lines. The characters of a line are pressed one after the
other; what is down goes to the keypad at the next poll, presses wait until the program asks for a key, and commands go
to the monitor. Function keys arrive as escape sequences.
-/
import Chip8.Input.Keyboard
import Chip8.Input.Script
import Chip8.Interpreter

namespace Chip8

def Key.ofLine : List Char → List Key
  | '\x1b' :: 'O' :: 'P' :: cs => .function 1 :: ofLine cs
  | '\x1b' :: 'O' :: 'Q' :: cs => .function 2 :: ofLine cs
  | '\x1b' :: 'O' :: 'R' :: cs => .function 3 :: ofLine cs
  | '\x1b' :: cs => .escape :: ofLine cs
  | '\n' :: cs => ofLine cs
  | c :: cs => .char c :: ofLine cs
  | [] => []

structure Terminal where
  keyboard : Keyboard
  /-- keypad keys for a program that asks for one -/
  presses : List UInt8
  commands : List Command
  deriving DecidableEq

namespace Terminal

def fresh : Terminal :=
  ⟨.fresh true, [], []⟩

def press (t : Terminal) (key : Key) : Terminal :=
  let stroke := t.keyboard.press key
  ⟨stroke.keyboard, t.presses ++ stroke.key.toList, t.commands ++ stroke.command.toList⟩

/-- take in a line -/
def type (t : Terminal) (line : String) : Terminal :=
  (Key.ofLine line.toList).foldl press t

/-- all keys up -/
def release (t : Terminal) : Terminal :=
  { t with keyboard := { t.keyboard with held := .released } }

def quit (t : Terminal) : Terminal :=
  { t with keyboard := { t.keyboard with quit := true } }

/-- what the input device does in the next turn -/
def script (t : Terminal) : Script where
  polls := [⟨none, t.commands, some (t.keyboard.held.pressed.map fun k => k.val.toUInt8), t.keyboard.quit⟩]
  waits := t.presses.map fun key => .ok (some key)
  quit := false

/-- the terminal after a turn with the given script: commands are gone, and a press if the program asked for one -/
def after (t : Terminal) (s : Script) : Terminal :=
  { t with presses := t.presses.drop (t.presses.length - s.waits.length), commands := [] }

end Terminal

/-- will the next cycle ask for a key? -/
def Interpreter.wantsKey {σ δ : Type} (s : Interpreter σ δ) : Bool :=
  match s.machine.fetch with
  | .ok (opcode, _) =>
    match Instruction.decode opcode with
    | some (.awaitKey _) => !s.monitor.isActive
    | _ => false
  | .error _ => false

def Screen.picture (s : Screen) : String :=
  String.intercalate "\n" ((List.range 32).map fun y =>
    String.ofList ((List.range 64).map fun x => if s.lit x y then '█' else ' '))

end Chip8
