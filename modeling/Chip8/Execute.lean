/-
What each instruction does. `execute` gives the machine and the input device afterwards, and the fault if there was one.
Most instructions that fail change nothing; the four exceptions keep what they did before the fault: ADD I, Vx keeps the
sum in I, LD [I], Vx and LD Vx, [I] keep the bytes moved so far, and DRW has already cleared VF.
-/
import Chip8.Bcd
import Chip8.Input
import Chip8.Machine

namespace Chip8

structure Outcome (σ : Type) where
  machine : Machine
  input : σ
  fault : Option Fault

namespace Machine

/-! ## Instructions that only touch the machine -/

def returnFrom (m : Machine) : Machine × Option Fault :=
  match m.pop with
  | .ok (addr, m) => (m.jump addr, none)
  | .error f => (m, some f)

/-- call a subroutine; the program counter is past the call already -/
def callTo (m : Machine) (addr : UInt16) : Machine × Option Fault :=
  match m.push m.pc with
  | .ok m => (m.jump addr, none)
  | .error f => (m, some f)

/-- store a result in Vx, then a flag in VF, so that the flag wins when x is F -/
def setWithFlag (m : Machine) (x : Register) (result flagged : UInt8) : Machine :=
  (m.setV x result).setV flag flagged

def flagOf (b : Bool) : UInt8 :=
  if b then 1 else 0

/-- draw the sprite at I with its corner at Vx, Vy; VF tells whether any lit pixel went out. The corner is read before
VF is cleared. -/
def drawAt (m : Machine) (x y : Register) (rows : Nat) : Machine × Option Fault :=
  let cleared := m.setV flag 0
  match cleared.draw (m.getV x) (m.getV y) rows with
  | .ok (collision, drawn) => (drawn.setV flag (flagOf collision), none)
  | .error f => (cleared, some f)

/-- skip the next instruction if the key in Vx is as asked -/
def skipOnKey (m : Machine) (x : Register) (pressed : Bool) : Machine × Option Fault :=
  match m.keypad.isPressed (m.getV x) with
  | .ok down => (m.skipIf (down == pressed), none)
  | .error f => (m, some f)

/-- add Vx to I, which keeps the sum even when it points past the end of memory -/
def addToIndex (m : Machine) (x : Register) : Machine × Option Fault :=
  let sum := m.i + (m.getV x).toUInt16
  ({ m with i := sum }, if sum.toNat ≥ Memory.size then some (.outOfBounds sum.toNat) else none)

/-- the decimal digits of Vx to I, I+1, I+2: all of them or none -/
def storeDecimal (m : Machine) (x : Register) : Machine × Option Fault :=
  match m.withMemory (m.memory.write m.i (Bcd.unpack (Bcd.ofByte (m.getV x)))) with
  | .ok m => (m, none)
  | .error f => (m, some f)

def upTo (x : Register) : List Register :=
  (List.finRange 16).take (x.val + 1)

/-- where register `r` lies in the block that I points to -/
def slot (m : Machine) (r : Register) : UInt16 :=
  m.i + r.val.toUInt16

/-- copy registers to the block at I, one after the other, up to the first that falls outside memory -/
def storeRegisters (m : Machine) : List Register → Machine × Option Fault
  | [] => (m, none)
  | r :: rs =>
    match m.withMemory (m.memory.writeByte (m.slot r) (m.getV r)) with
    | .ok m => storeRegisters m rs
    | .error f => (m, some f)

/-- copy registers from the block at I, one after the other, up to the first that falls outside memory -/
def loadRegisters (m : Machine) : List Register → Machine × Option Fault
  | [] => (m, none)
  | r :: rs =>
    match m.memory.readByte (m.slot r) with
    | .ok b => loadRegisters (m.setV r b) rs
    | .error f => (m, some f)

def randomTo (m : Machine) (x : Register) (mask : UInt8) : Machine :=
  let (b, random) := m.random.nextByte
  { m with random := random }.setV x (b &&& mask)

end Machine

namespace Outcome

variable {σ : Type}

/-- the instruction went well and the input was not asked -/
def fine (dev : σ) (m : Machine) : Outcome σ :=
  ⟨m, dev, none⟩

/-- the input was not asked -/
def quiet (dev : σ) (r : Machine × Option Fault) : Outcome σ :=
  ⟨r.1, dev, r.2⟩

end Outcome

/-- wait for a key and put it into Vx. When the user quits instead, the program counter goes back to this instruction
and Vx stays. -/
def awaitKey {σ : Type} [Input σ] (m : Machine) (dev : σ) (x : Register) : Outcome σ :=
  let waited := Input.await dev
  match waited.result with
  | .error why => ⟨m, waited.device, some (.io why)⟩
  | .ok none => ⟨m.jump (m.pc - 2), waited.device, none⟩
  | .ok (some key) =>
    if key.toNat < 16 then ⟨m.setV x key, waited.device, none⟩ else ⟨m, waited.device, some (.noSuchKey key)⟩

open Outcome Machine

/-- carry out an instruction; the program counter is past it already -/
def execute {σ : Type} [Input σ] (ins : Instruction) (m : Machine) (dev : σ) : Noted (Outcome σ) :=
  match ins with
  | .clear => pure (fine dev m.clearScreen)
  | .ret => pure (quiet dev m.returnFrom)
  | .jump addr => pure (fine dev (m.jump addr))
  | .call addr => pure (quiet dev (m.callTo addr))
  | .skipEqByte x byte => pure (fine dev (m.skipIf (m.getV x == byte)))
  | .skipNeByte x byte => pure (fine dev (m.skipIf (m.getV x != byte)))
  | .skipEq x y => pure (fine dev (m.skipIf (m.getV x == m.getV y)))
  | .skipNe x y => pure (fine dev (m.skipIf (m.getV x != m.getV y)))
  | .loadByte x byte => pure (fine dev (m.setV x byte))
  | .addByte x byte => pure (fine dev (m.setV x (m.getV x + byte)))
  | .copy x y => pure (fine dev (m.setV x (m.getV y)))
  | .or x y => pure (fine dev (m.setV x (m.getV x ||| m.getV y)))
  | .and x y => pure (fine dev (m.setV x (m.getV x &&& m.getV y)))
  | .xor x y => pure (fine dev (m.setV x (m.getV x ^^^ m.getV y)))
  | .add x y =>
    pure (fine dev (m.setWithFlag x (m.getV x + m.getV y) (flagOf ((m.getV x).toNat + (m.getV y).toNat > 255))))
  | .sub x y => pure (fine dev (m.setWithFlag x (m.getV x - m.getV y) (flagOf (m.getV x ≥ m.getV y))))
  | .shiftRight x => pure (fine dev (m.setWithFlag x (m.getV x >>> 1) (m.getV x &&& 1)))
  | .subFrom x y => pure (fine dev (m.setWithFlag x (m.getV y - m.getV x) (flagOf (m.getV y ≥ m.getV x))))
  | .shiftLeft x => pure (fine dev (m.setWithFlag x (m.getV x <<< 1) (m.getV x >>> 7)))
  | .loadIndex addr => pure (fine dev { m with i := addr })
  | .jumpOffset addr => pure (fine dev (m.jump (addr + (m.getV 0).toUInt16)))
  | .random x mask => pure (fine dev (m.randomTo x mask))
  | .draw x y rows => pure (quiet dev (m.drawAt x y rows.val))
  | .skipPressed x => pure (quiet dev (m.skipOnKey x true))
  | .skipReleased x => pure (quiet dev (m.skipOnKey x false))
  | .readDelay x => pure (fine dev (m.setV x m.timers.delay.value))
  | .awaitKey x => pure (awaitKey m dev x)
  | .setDelay x => fine dev <$> m.setDelay (m.getV x)
  | .setSound x => fine dev <$> m.setSound (m.getV x)
  | .addIndex x => pure (quiet dev (m.addToIndex x))
  | .glyph x => pure (fine dev { m with i := Memory.glyphAddr (m.getV x) })
  | .decimal x => pure (quiet dev (m.storeDecimal x))
  | .store x => pure (quiet dev (m.storeRegisters (upTo x)))
  | .load x => pure (quiet dev (m.loadRegisters (upTo x)))

end Chip8
