/-
No index of a program is ever out of range. `Bare.execute` carries an instruction out on the bare machine with the raw
operands of the opcode, and `Bare.cycle` fetches and decodes before that; both have no outcome as soon as one register,
stack slot, byte or pixel is asked for that is not there.

Results:
- `Bare.execute_of`: every instruction has an outcome on the bare machine, the one it has on the machine itself;
- `Bare.cycle_of`: so has every cycle, whatever the machine, the opcode it fetches and the input device.
-/
import Mathlib.Data.List.FinRange
import Mathlib.Data.List.OfFn
import Chip8.Proofs.BareMachine
import Chip8.Proofs.Flow

namespace Chip8.Bare

open Machine (flag flagOf)

/-! ## Instructions that only touch the machine -/

/-- the machine at another address -/
def jump (m : Bare) (addr : UInt16) : Bare :=
  { m with pc := addr }

/-- past the next instruction, if the condition holds -/
def skipIf (m : Bare) (cond : Bool) : Bare :=
  if cond then m.jump (m.pc + 2) else m

/-- compare Vx with a byte, and skip if the test says so -/
def testByte (m : Bare) (opcode : UInt16) (test : UInt8 → UInt8 → Bool) : Option Bare := do
  let a ← m.v[x opcode]?
  some (m.skipIf (test a (Opcode.byte opcode)))

/-- compare Vx with Vy, and skip if the test says so -/
def test (m : Bare) (opcode : UInt16) (test : UInt8 → UInt8 → Bool) : Option Bare := do
  let a ← m.v[x opcode]?
  let b ← m.v[y opcode]?
  some (m.skipIf (test a b))

/-- Vx and Vy to Vx -/
def combine (m : Bare) (opcode : UInt16) (f : UInt8 → UInt8 → UInt8) : Option Bare := do
  let a ← m.v[x opcode]?
  let b ← m.v[y opcode]?
  m.setV (x opcode) (f a b)

/-- Vx and Vy to Vx and, after it, a flag to VF -/
def combineWithFlag (m : Bare) (opcode : UInt16) (f : UInt8 → UInt8 → UInt8 × UInt8) : Option Bare := do
  let a ← m.v[x opcode]?
  let b ← m.v[y opcode]?
  let m ← m.setV (x opcode) (f a b).1
  m.setV flag.val (f a b).2

/-- use Vx for what cannot fail -/
def useV (m : Bare) (opcode : UInt16) (f : UInt8 → Bare) : Option Bare := do
  let a ← m.v[x opcode]?
  some (f a)

/-- return from a subroutine -/
def returnFrom (m : Bare) : Option (Bare × Option Fault) := do
  match ← m.pop with
  | .ok (addr, m) => some (m.jump addr, none)
  | .error f => some (m, some f)

/-- call a subroutine -/
def callTo (m : Bare) (addr : UInt16) : Option (Bare × Option Fault) := do
  match ← m.push m.pc with
  | .ok m => some (m.jump addr, none)
  | .error f => some (m, some f)

/-- draw the sprite at I with its corner at Vx, Vy -/
def drawAt (m : Bare) (opcode : UInt16) : Option (Bare × Option Fault) := do
  let a ← m.v[x opcode]?
  let b ← m.v[y opcode]?
  let cleared ← m.setV flag.val 0
  match ← cleared.draw a b (n opcode) with
  | .ok (collision, drawn) => do
    let m ← drawn.setV flag.val (flagOf collision)
    some (m, none)
  | .error f => some (cleared, some f)

/-- skip the next instruction if the key in Vx is as asked -/
def skipOnKey (m : Bare) (opcode : UInt16) (pressed : Bool) : Option (Bare × Option Fault) := do
  let a ← m.v[x opcode]?
  match m.keypad.isPressed a with
  | .ok down => some (m.skipIf (down == pressed), none)
  | .error f => some (m, some f)

/-- add Vx to I -/
def addToIndex (m : Bare) (opcode : UInt16) : Option (Bare × Option Fault) := do
  let a ← m.v[x opcode]?
  let sum := m.i + a.toUInt16
  some ({ m with i := sum }, if sum.toNat ≥ Memory.size then some (.outOfBounds sum.toNat) else none)

/-- the decimal digits of Vx to I, I+1, I+2 -/
def storeDecimal (m : Bare) (opcode : UInt16) : Option (Bare × Option Fault) := do
  let a ← m.v[x opcode]?
  match ← m.splice m.i (Bcd.unpack (Bcd.ofByte a)) with
  | .ok m => some (m, none)
  | .error f => some (m, some f)

/-- copy registers to the block at I, up to the first that falls outside memory -/
def storeRegisters (m : Bare) : List Nat → Option (Bare × Option Fault)
  | [] => some (m, none)
  | r :: rs => do
    let a ← m.v[r]?
    match ← m.splice (m.i + r.toUInt16) [a] with
    | .ok m => storeRegisters m rs
    | .error f => some (m, some f)

/-- copy registers from the block at I, up to the first that falls outside memory -/
def loadRegisters (m : Bare) : List Nat → Option (Bare × Option Fault)
  | [] => some (m, none)
  | r :: rs => do
    match ← m.slice (m.i + r.toUInt16) 1 with
    | .ok bytes => do
      let b ← bytes[0]?
      let m ← m.setV r b
      loadRegisters m rs
    | .error f => some (m, some f)

/-! ## Execution -/

variable {σ : Type}

/-- the instruction went well and the input was not asked -/
def fine (dev : σ) (m : Bare) : Bare × σ × Option Fault :=
  (m, dev, none)

/-- the input was not asked -/
def quiet (dev : σ) (r : Bare × Option Fault) : Bare × σ × Option Fault :=
  (r.1, dev, r.2)

/-- wait for a key and put it into Vx -/
def awaitKey [Input σ] (m : Bare) (dev : σ) (opcode : UInt16) : Option (Bare × σ × Option Fault) :=
  let waited := Input.await dev
  match waited.result with
  | .error why => some (m, waited.device, some (.io why))
  | .ok none => some (m.jump (m.pc - 2), waited.device, none)
  | .ok (some key) =>
    if key.toNat < 16 then (m.setV (x opcode) key).map (fine waited.device)
    else some (m, waited.device, some (.noSuchKey key))

/-- carry out an instruction with the operands of the opcode -/
def execute [Input σ] (m : Bare) (ins : Instruction) (opcode : UInt16) (dev : σ) :
    Option (Bare × σ × Option Fault) :=
  match ins with
  | .clear => some (fine dev { m with rows := List.replicate 32 (List.replicate 64 false), redraw := true })
  | .ret => m.returnFrom.map (quiet dev)
  | .jump _ => some (fine dev (m.jump (Opcode.addr opcode)))
  | .call _ => (m.callTo (Opcode.addr opcode)).map (quiet dev)
  | .skipEqByte _ _ => (m.testByte opcode fun a b => a == b).map (fine dev)
  | .skipNeByte _ _ => (m.testByte opcode fun a b => a != b).map (fine dev)
  | .skipEq _ _ => (m.test opcode fun a b => a == b).map (fine dev)
  | .skipNe _ _ => (m.test opcode fun a b => a != b).map (fine dev)
  | .loadByte _ _ => (m.setV (x opcode) (Opcode.byte opcode)).map (fine dev)
  | .addByte _ _ => do
    let a ← m.v[x opcode]?
    (m.setV (x opcode) (a + Opcode.byte opcode)).map (fine dev)
  | .copy _ _ => do
    let b ← m.v[y opcode]?
    (m.setV (x opcode) b).map (fine dev)
  | .or _ _ => (m.combine opcode fun a b => a ||| b).map (fine dev)
  | .and _ _ => (m.combine opcode fun a b => a &&& b).map (fine dev)
  | .xor _ _ => (m.combine opcode fun a b => a ^^^ b).map (fine dev)
  | .add _ _ => (m.combineWithFlag opcode fun a b => (a + b, flagOf (a.toNat + b.toNat > 255))).map (fine dev)
  | .sub _ _ => (m.combineWithFlag opcode fun a b => (a - b, flagOf (a ≥ b))).map (fine dev)
  | .shiftRight _ => (m.combineWithFlag opcode fun a _ => (a >>> 1, a &&& 1)).map (fine dev)
  | .subFrom _ _ => (m.combineWithFlag opcode fun a b => (b - a, flagOf (b ≥ a))).map (fine dev)
  | .shiftLeft _ => (m.combineWithFlag opcode fun a _ => (a <<< 1, a >>> 7)).map (fine dev)
  | .loadIndex _ => some (fine dev { m with i := Opcode.addr opcode })
  | .jumpOffset _ => do
    let a ← m.v[0]?
    some (fine dev (m.jump (Opcode.addr opcode + a.toUInt16)))
  | .random _ _ =>
    let (b, random) := m.random.nextByte
    ({ m with random := random }.setV (x opcode) (b &&& Opcode.byte opcode)).map (fine dev)
  | .draw _ _ _ => (m.drawAt opcode).map (quiet dev)
  | .skipPressed _ => (m.skipOnKey opcode true).map (quiet dev)
  | .skipReleased _ => (m.skipOnKey opcode false).map (quiet dev)
  | .readDelay _ => (m.setV (x opcode) m.timers.delay.value).map (fine dev)
  | .awaitKey _ => m.awaitKey dev opcode
  | .setDelay _ =>
    (m.useV opcode fun a => { m with timers := { m.timers with delay := (m.timers.delay.set a).val } }).map (fine dev)
  | .setSound _ =>
    (m.useV opcode fun a => { m with timers := { m.timers with sound := (m.timers.sound.set a).val } }).map (fine dev)
  | .addIndex _ => (m.addToIndex opcode).map (quiet dev)
  | .glyph _ => (m.useV opcode fun a => { m with i := Memory.glyphAddr a }).map (fine dev)
  | .decimal _ => (m.storeDecimal opcode).map (quiet dev)
  | .store _ => (m.storeRegisters (List.range (x opcode + 1))).map (quiet dev)
  | .load _ => (m.loadRegisters (List.range (x opcode + 1))).map (quiet dev)

/-- the opcode at the program counter, and the machine past it -/
def fetch (m : Bare) : Option (Except Fault (UInt16 × Bare)) := do
  match ← m.slice m.pc 2 with
  | .error f => some (.error f)
  | .ok word => do
    let high ← word[0]?
    let low ← word[1]?
    some (.ok ((high.toUInt16 <<< 8) ||| low.toUInt16, m.jump (m.pc + 2)))

/-- fetch, decode and execute one instruction -/
def cycle [Input σ] (m : Bare) (dev : σ) : Option (Bare × σ × Option Fault) := do
  match ← m.fetch with
  | .error f => some (m, dev, some f)
  | .ok (opcode, fetched) =>
    match Instruction.decode opcode with
    | none => some (fetched, dev, some (.invalidOpcode opcode m.pc))
    | some ins => fetched.execute ins opcode dev

/-! ## The same on a machine -/

/-- what an operation of a machine comes to, without bounds -/
def ofPair (r : Machine × Option Fault) : Bare × Option Fault :=
  (of r.1, r.2)

/-- what an instruction comes to, without bounds -/
def ofOutcome (out : Outcome σ) : Bare × σ × Option Fault :=
  (of out.machine, out.input, out.fault)

theorem slot_of (m : Machine) (r : Register) : (of m).i + r.val.toUInt16 = m.slot r := rfl

@[simp] theorem skipIf_of (m : Machine) (cond : Bool) : (of m).skipIf cond = of (m.skipIf cond) := by
  cases cond with
  | false => rfl
  | true => rfl

@[simp] theorem testByte_of (m : Machine) (opcode : UInt16) (f : UInt8 → UInt8 → Bool) :
    (of m).testByte opcode f = some (of (m.skipIf (f (m.getV (Opcode.x opcode)) (Opcode.byte opcode)))) := by
  rw [testByte, x_eq, getElem?_v_of]
  exact congrArg some (skipIf_of m _)

@[simp] theorem test_of (m : Machine) (opcode : UInt16) (f : UInt8 → UInt8 → Bool) :
    (of m).test opcode f = some (of (m.skipIf (f (m.getV (Opcode.x opcode)) (m.getV (Opcode.y opcode))))) := by
  rw [test, x_eq, y_eq, getElem?_v_of, getElem?_v_of]
  exact congrArg some (skipIf_of m _)

@[simp] theorem combine_of (m : Machine) (opcode : UInt16) (f : UInt8 → UInt8 → UInt8) :
    (of m).combine opcode f =
      some (of (m.setV (Opcode.x opcode) (f (m.getV (Opcode.x opcode)) (m.getV (Opcode.y opcode))))) := by
  rw [combine, x_eq, y_eq, getElem?_v_of, getElem?_v_of]
  exact setV_of m _ _

@[simp] theorem combineWithFlag_of (m : Machine) (opcode : UInt16) (f : UInt8 → UInt8 → UInt8 × UInt8) :
    (of m).combineWithFlag opcode f =
      some (of (m.setWithFlag (Opcode.x opcode) (f (m.getV (Opcode.x opcode)) (m.getV (Opcode.y opcode))).1
        (f (m.getV (Opcode.x opcode)) (m.getV (Opcode.y opcode))).2)) := by
  simp only [combineWithFlag, x_eq, y_eq, getElem?_v_of, setV_of, Option.bind_eq_bind, Option.bind_some]
  rfl

@[simp] theorem useV_of (m : Machine) (opcode : UInt16) (f : UInt8 → Bare) :
    (of m).useV opcode f = some (f (m.getV (Opcode.x opcode))) := by
  rw [useV, x_eq, getElem?_v_of]
  rfl

@[simp] theorem returnFrom_of (m : Machine) : (of m).returnFrom = some (ofPair m.returnFrom) := by
  rw [returnFrom, pop_of, Machine.returnFrom]
  cases m.pop with
  | error f => rfl
  | ok p => rfl

@[simp] theorem callTo_of (m : Machine) (addr : UInt16) : (of m).callTo addr = some (ofPair (m.callTo addr)) := by
  rw [callTo, push_of, Machine.callTo, of_pc]
  cases m.push m.pc with
  | error f => rfl
  | ok p => rfl

@[simp] theorem drawAt_of (m : Machine) (opcode : UInt16) :
    (of m).drawAt opcode =
      some (ofPair (m.drawAt (Opcode.x opcode) (Opcode.y opcode) (Opcode.nibble opcode).val)) := by
  simp only [drawAt, Machine.drawAt, x_eq, y_eq, n_eq, getElem?_v_of, setV_of, draw_of, Option.bind_eq_bind,
    Option.bind_some]
  cases (m.setV flag 0).draw (m.getV (Opcode.x opcode)) (m.getV (Opcode.y opcode)) (Opcode.nibble opcode).val with
  | error f => rfl
  | ok drawn =>
    simp only [Except.map, setV_of, Option.bind_some]
    rfl

@[simp] theorem skipOnKey_of (m : Machine) (opcode : UInt16) (pressed : Bool) :
    (of m).skipOnKey opcode pressed = some (ofPair (m.skipOnKey (Opcode.x opcode) pressed)) := by
  simp only [skipOnKey, Machine.skipOnKey, x_eq, getElem?_v_of, of_keypad, Option.bind_eq_bind, Option.bind_some]
  cases m.keypad.isPressed (m.getV (Opcode.x opcode)) with
  | error f => rfl
  | ok down =>
    simp only [skipIf_of]
    rfl

@[simp] theorem addToIndex_of (m : Machine) (opcode : UInt16) :
    (of m).addToIndex opcode = some (ofPair (m.addToIndex (Opcode.x opcode))) := by
  rw [addToIndex, x_eq, getElem?_v_of]
  rfl

@[simp] theorem storeDecimal_of (m : Machine) (opcode : UInt16) :
    (of m).storeDecimal opcode = some (ofPair (m.storeDecimal (Opcode.x opcode))) := by
  simp only [storeDecimal, Machine.storeDecimal, x_eq, getElem?_v_of, of_i, splice_of, Option.bind_eq_bind,
    Option.bind_some]
  cases m.withMemory (m.memory.write m.i (Bcd.unpack (Bcd.ofByte (m.getV (Opcode.x opcode))))) with
  | error f => rfl
  | ok m' => rfl

/-- the registers that a block copy goes through -/
theorem map_val_upTo (r : Register) : (Machine.upTo r).map Fin.val = List.range (r.val + 1) := by
  rw [Machine.upTo, List.map_take, List.map_coe_finRange_eq_range, List.take_range]
  congr 1
  omega

theorem storeRegisters_of (m : Machine) (rs : List Register) :
    (of m).storeRegisters (rs.map Fin.val) = some (ofPair (m.storeRegisters rs)) := by
  induction rs generalizing m with
  | nil => rfl
  | cons r rs ih =>
    simp only [List.map_cons, storeRegisters, Machine.storeRegisters, Memory.writeByte, getElem?_v_of, slot_of,
      splice_of, Option.bind_eq_bind, Option.bind_some]
    cases m.withMemory (m.memory.write (m.slot r) [m.getV r]) with
    | error f => rfl
    | ok m' => exact ih m'

theorem loadRegisters_of (m : Machine) (rs : List Register) :
    (of m).loadRegisters (rs.map Fin.val) = some (ofPair (m.loadRegisters rs)) := by
  induction rs generalizing m with
  | nil => rfl
  | cons r rs ih =>
    have hbyte : (List.range 1).map (fun k => m.memory.byteAt ((m.slot r).toNat + k)) =
        [m.memory.byteAt (m.slot r).toNat] := rfl
    simp only [List.map_cons, loadRegisters, Machine.loadRegisters, Memory.read, Memory.readByte, slot_of, slice_of,
      hbyte, Option.bind_eq_bind, Option.bind_some]
    cases Memory.checkRange (m.slot r) 1 with
    | error f => rfl
    | ok u =>
      simp only [Except.map, List.getElem?_cons_zero, setV_of, Option.bind_some]
      exact ih (m.setV r (m.memory.byteAt (m.slot r).toNat))

/-- the rows of a dark screen -/
theorem rowsOf_blank : rowsOf Screen.blank = List.replicate 32 (List.replicate 64 false) := by
  simp only [rowsOf, Screen.pixel_blank, List.ofFn_const]

variable [Input σ]

theorem awaitKey_of (m : Machine) (dev : σ) (opcode : UInt16) :
    (of m).awaitKey dev opcode = some (ofOutcome (Chip8.awaitKey m dev (Opcode.x opcode))) := by
  unfold awaitKey Chip8.awaitKey
  cases hk : (Input.await dev).result with
  | error why =>
    simp only [hk]
    rfl
  | ok key =>
    simp only [hk]
    cases key with
    | none => rfl
    | some key =>
      by_cases hlt : key.toNat < 16
      · simp only [if_pos hlt, x_eq, setV_of]
        rfl
      · simp only [if_neg hlt]
        rfl

/-- **Instructions.** An instruction that was decoded has an outcome on the bare machine, the same as on the machine
that knows its bounds: no index is out of range. -/
theorem execute_of {opcode : UInt16} {ins : Instruction} (hd : Instruction.decode opcode = some ins) (m : Machine)
    (dev : σ) : (of m).execute ins opcode dev = some (ofOutcome (Chip8.execute ins m dev).val) := by
  have hf := Instruction.fieldsOf_decode hd
  cases ins with
  | clear =>
    rw [execute, ← rowsOf_blank]
    rfl
  | ret =>
    rw [execute, returnFrom_of]
    rfl
  | jump addr | loadIndex addr =>
    obtain rfl := hf
    rfl
  | jumpOffset addr =>
    obtain rfl := hf
    have h0 : (of m).v[0]? = some (m.getV 0) := getElem?_v_of m 0
    rw [execute, h0]
    rfl
  | call addr =>
    obtain rfl := hf
    rw [execute, callTo_of]
    rfl
  | skipEqByte r byte | skipNeByte r byte =>
    obtain ⟨rfl, rfl⟩ := hf
    rw [execute, testByte_of]
    rfl
  | skipEq r q | skipNe r q =>
    obtain ⟨rfl, rfl⟩ := hf
    rw [execute, test_of]
    rfl
  | loadByte r byte =>
    obtain ⟨rfl, rfl⟩ := hf
    rw [execute, x_eq, setV_of]
    rfl
  | addByte r byte =>
    obtain ⟨rfl, rfl⟩ := hf
    rw [execute, x_eq, getElem?_v_of]
    exact congrArg (Option.map (fine dev)) (setV_of m _ _)
  | copy r q =>
    obtain ⟨rfl, rfl⟩ := hf
    rw [execute, x_eq, y_eq, getElem?_v_of]
    exact congrArg (Option.map (fine dev)) (setV_of m _ _)
  | or r q | and r q | xor r q =>
    obtain ⟨rfl, rfl⟩ := hf
    rw [execute, combine_of]
    rfl
  | add r q | sub r q | subFrom r q =>
    obtain ⟨rfl, rfl⟩ := hf
    rw [execute, combineWithFlag_of]
    rfl
  | shiftRight r | shiftLeft r =>
    obtain rfl := hf
    rw [execute, combineWithFlag_of]
    rfl
  | random r mask =>
    obtain ⟨rfl, rfl⟩ := hf
    rw [execute, x_eq]
    exact congrArg (Option.map (fine dev)) (setV_of { m with random := m.random.nextByte.2 } _ _)
  | draw r q rows =>
    obtain ⟨rfl, rfl, rfl⟩ := hf
    rw [execute, drawAt_of]
    rfl
  | skipPressed r | skipReleased r =>
    obtain rfl := hf
    rw [execute, skipOnKey_of]
    rfl
  | readDelay r =>
    obtain rfl := hf
    rw [execute, x_eq, setV_of]
    rfl
  | awaitKey r =>
    obtain rfl := hf
    exact awaitKey_of m dev opcode
  | setDelay r | setSound r | glyph r =>
    obtain rfl := hf
    rw [execute, useV_of]
    rfl
  | addIndex r =>
    obtain rfl := hf
    rw [execute, addToIndex_of]
    rfl
  | decimal r =>
    obtain rfl := hf
    rw [execute, storeDecimal_of]
    rfl
  | store r =>
    obtain rfl := hf
    rw [execute, x_eq, ← map_val_upTo, storeRegisters_of]
    rfl
  | load r =>
    obtain rfl := hf
    rw [execute, x_eq, ← map_val_upTo, loadRegisters_of]
    rfl

omit [Input σ] in
theorem fetch_of (m : Machine) : (of m).fetch = some (m.fetch.map fun (opcode, m) => (opcode, of m)) := by
  simp only [fetch, Machine.fetch, Memory.readWord, Memory.read, of_pc, slice_of, Option.bind_eq_bind, Option.bind_some]
  cases Memory.checkRange m.pc 2 with
  | error f => rfl
  | ok u => rfl

variable {δ : Type}

/-- **Index safety.** Whatever the machine, the opcode at its program counter and the input device, a cycle has an
outcome on the bare machine, the same as on the machine that knows its bounds: no register, stack, memory or pixel index
is out of range. -/
theorem cycle_of (s : Interpreter σ δ) :
    (of s.machine).cycle s.input = some (of s.cycle.val.1.machine, s.cycle.val.1.input, s.cycle.val.2) := by
  rw [cycle, fetch_of]
  rcases Interpreter.cycle_cases s with ⟨f, hf, hc⟩ | ⟨opcode, hf, hd, hc⟩ | ⟨opcode, ins, hf, hd, hc⟩
  · rw [hf, hc]
    rfl
  · rw [hf, hc]
    simp only [Except.map, Option.bind_eq_bind, Option.bind_some, hd]
    rfl
  · rw [hf, hc]
    simp only [Except.map, Option.bind_eq_bind, Option.bind_some, hd]
    exact execute_of hd s.machine.skip s.input

end Chip8.Bare
