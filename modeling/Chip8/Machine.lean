/-
The machine: everything that a program can see or touch. Operations that can fail give the fault, and the machine is
then as it was before.
-/
import Chip8.CallStack
import Chip8.Instruction
import Chip8.Keypad
import Chip8.Memory
import Chip8.Random
import Chip8.Screen
import Chip8.Timer

namespace Chip8

structure Machine where
  memory : Memory
  v : Vector UInt8 16
  i : UInt16
  pc : UInt16
  stack : CallStack
  timers : Timers
  keypad : Keypad
  screen : Screen
  /-- has the screen changed since it was last shown? -/
  redraw : Bool
  random : Generator
  deriving DecidableEq

namespace Machine

def fresh (timers : Timers) (random : Generator) : Machine where
  memory := .fresh
  v := Vector.replicate 16 0
  i := 0
  pc := Memory.programStart
  stack := .empty
  timers := timers
  keypad := .released
  screen := .blank
  redraw := false
  random := random

/-! ## Registers -/

/-- the flag register, V15 -/
def flag : Register := 15

def getV (m : Machine) (x : Register) : UInt8 :=
  m.v[x]

def setV (m : Machine) (x : Register) (b : UInt8) : Machine :=
  { m with v := m.v.set x b }

/-- a register is set alone -/
theorem getV_setV (m : Machine) (x r : Register) (b : UInt8) : (m.setV x b).getV r = if r = x then b else m.getV r := by
  unfold setV getV
  by_cases h : r = x
  · subst h
    rw [if_pos rfl]
    exact Vector.getElem_set_self _
  · have hne : x.val ≠ r.val := fun e => h (Fin.ext e.symm)
    rw [if_neg h]
    exact Vector.getElem_set_ne x.isLt r.isLt hne

/-- a register by a number from outside -/
def register (m : Machine) (reg : Nat) : Except Fault UInt8 :=
  if h : reg < 16 then .ok m.v[reg] else .error (.noSuchRegister reg)

/-- set a register by a number from outside -/
def setRegister (m : Machine) (reg : Nat) (b : UInt8) : Except Fault Machine :=
  if h : reg < 16 then .ok (m.setV ⟨reg, h⟩ b) else .error (.noSuchRegister reg)

/-! ## Control -/

def jump (m : Machine) (addr : UInt16) : Machine :=
  { m with pc := addr }

/-- past the next instruction -/
def skip (m : Machine) : Machine :=
  m.jump (m.pc + 2)

/-- past the next instruction, if the condition holds -/
def skipIf (m : Machine) (cond : Bool) : Machine :=
  if cond then m.skip else m

def push (m : Machine) (addr : UInt16) : Except Fault Machine :=
  match m.stack.push addr with
  | some stack => .ok { m with stack := stack }
  | none => .error (.stackOverflow m.pc)

def pop (m : Machine) : Except Fault (UInt16 × Machine) :=
  match m.stack.pop with
  | some (addr, stack) => .ok (addr, { m with stack := stack })
  | none => .error (.stackUnderflow m.pc)

/-- the opcode at the program counter, and the machine past it -/
def fetch (m : Machine) : Except Fault (UInt16 × Machine) :=
  (m.memory.readWord m.pc).map fun opcode => (opcode, m.skip)

/-! ## Memory -/

/-- the machine with its memory changed, unless that failed -/
@[inline] def withMemory (m : Machine) (changed : Except Fault Memory) : Except Fault Machine :=
  changed.map fun memory => { m with memory := memory }

theorem withMemory_eq_ok {m m' : Machine} {changed : Except Fault Memory} (h : m.withMemory changed = .ok m') :
    ∃ memory, changed = .ok memory ∧ m' = { m with memory := memory } := by
  cases changed with
  | error f => cases h
  | ok memory =>
    cases h
    exact ⟨memory, rfl, rfl⟩

/-! ## Keypad -/

def setKey (m : Machine) (key : UInt8) (pressed : Bool) : Except Fault Machine :=
  (m.keypad.set key pressed).map fun keypad => { m with keypad := keypad }

/-! ## Timers -/

def setDelay (m : Machine) (b : UInt8) : Noted Machine := do
  let delay ← m.timers.delay.set b
  pure { m with timers := { m.timers with delay := delay } }

def setSound (m : Machine) (b : UInt8) : Noted Machine := do
  let sound ← m.timers.sound.set b
  pure { m with timers := { m.timers with sound := sound } }

def disableDelay (m : Machine) : Noted Machine := do
  let delay ← m.timers.delay.disable
  pure { m with timers := { m.timers with delay := delay } }

def disableSound (m : Machine) : Noted Machine := do
  let sound ← m.timers.sound.disable
  pure { m with timers := { m.timers with sound := sound } }

def enableDelay (m : Machine) : Noted Machine := do
  let delay ← m.timers.delay.enable
  pure { m with timers := { m.timers with delay := delay } }

def enableSound (m : Machine) : Noted Machine := do
  let sound ← m.timers.sound.enable
  pure { m with timers := { m.timers with sound := sound } }

def ticks (m : Machine) (n : Nat) : Noted Machine := do
  let timers ← m.timers.ticks n
  pure { m with timers := timers }

/-! ## Screen -/

def clearScreen (m : Machine) : Machine :=
  { m with screen := .blank, redraw := true }

/-- draw the sprite of `rows` rows that I points to; the flag tells whether any lit pixel went out. The rows are read
before any pixel changes. -/
def draw (m : Machine) (x y : UInt8) (rows : Nat) : Except Fault (Bool × Machine) :=
  (m.memory.read m.i rows).map fun sprite =>
    let (screen, collision) := m.screen.drawSprite x y sprite
    (collision, { m with screen := screen, redraw := true })

/-- has the screen changed since this was last asked? -/
def takeRedraw (m : Machine) : Bool × Machine :=
  (m.redraw, { m with redraw := false })

/-! ## Random numbers -/

def reseed (m : Machine) (seed : UInt64) : Machine :=
  { m with random := .ofSeed seed }

end Machine

end Chip8
