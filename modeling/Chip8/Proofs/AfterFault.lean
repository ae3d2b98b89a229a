/-
What an instruction leaves behind when it faults. Most of them leave the machine as it was. Four do something first:
ADD I, Vx has put the sum in I, DRW has cleared VF, and the block transfers have moved all registers whose addresses lie
in memory, so that the bytes from I to the end of memory are all written, or all read. `afterFault` is that machine.

Results:
- `transfer_upTo_fault`: a block transfer faults when its last address lies outside memory, at the first that does;
- `storeRegisters_after_fault`, `loadRegisters_after_fault`: what is then in memory and in the registers;
- `execute_after_fault`: every instruction that faults leaves `afterFault`;
- `opcode_after_fault`: the same of all opcodes that stand for an instruction.
-/
import Chip8.Proofs.Footprint

namespace Chip8

/-! ## Memory byte by byte -/

namespace Memory

/-- the memory with the given bytes -/
def ofBytes (f : Nat → UInt8) : Memory :=
  ⟨Vector.ofFn fun a => f a.val⟩

theorem byteAt_ofBytes {f : Nat → UInt8} {a : Nat} (h : a < size) : (ofBytes f).byteAt a = f a := by
  have h : a < 4096 := h
  simp [byteAt, ofBytes, h]

end Memory

namespace Machine

/-! ## Block transfers that fault -/

theorem transfer_upTo_fault {move : Machine → Register → Machine} (hi : ∀ m r, (move m r).i = m.i) (m : Machine)
    (x : Register) : (m.transfer move (upTo x)).2 =
      if m.i.toNat + x.val ≥ Memory.size then some (.outOfBounds (max m.i.toNat Memory.size)) else none := by
  have htransfer : m.transfer move (upTo x) = m.transfer move (lowest (x.val + 1)) := rfl
  rw [htransfer, transfer_lowest hi m (by omega)]
  by_cases h : m.i.toNat + x.val ≥ Memory.size
  · rw [if_pos h, if_neg (by unfold room; omega)]
  · rw [if_neg h, if_pos (by unfold room; omega)]

theorem storeRegisters_upTo_fault (m : Machine) (x : Register) : (m.storeRegisters (upTo x)).2 =
    if m.i.toNat + x.val ≥ Memory.size then some (.outOfBounds (max m.i.toNat Memory.size)) else none := by
  rw [storeRegisters_eq_transfer, transfer_upTo_fault storeOne_i]

theorem loadRegisters_upTo_fault (m : Machine) (x : Register) : (m.loadRegisters (upTo x)).2 =
    if m.i.toNat + x.val ≥ Memory.size then some (.outOfBounds (max m.i.toNat Memory.size)) else none := by
  rw [loadRegisters_eq_transfer, transfer_upTo_fault loadOne_i]

/-- a block that does not fit ends where memory does -/
theorem room_of_outside {m : Machine} {x : Register} (h : m.i.toNat + x.val ≥ Memory.size) :
    m.room (x.val + 1) = Memory.size - m.i.toNat := by
  unfold room
  omega

/-- V0, V1 and so on stored from I up to the end of memory -/
def storedToEnd (m : Machine) : Machine :=
  { m with memory := .ofBytes fun a =>
      if m.i.toNat ≤ a then m.getV (Fin.ofNat 16 (a - m.i.toNat)) else m.memory.byteAt a }

/-- V0, V1 and so on loaded from I up to the end of memory -/
def loadedToEnd (m : Machine) : Machine :=
  { m with v := Vector.ofFn fun r =>
      if m.i.toNat + r.val < Memory.size then m.memory.byteAt (m.i.toNat + r.val) else m.getV r }

theorem getV_loadedToEnd (m : Machine) (r : Register) : m.loadedToEnd.getV r =
    if m.i.toNat + r.val < Memory.size then m.memory.byteAt (m.i.toNat + r.val) else m.getV r := by
  rw [getV, loadedToEnd, Fin.getElem_fin, Vector.getElem_ofFn]

/-- there is nothing to store where I lies outside memory -/
theorem storedToEnd_of_outside {m : Machine} (h : Memory.size ≤ m.i.toNat) : m.storedToEnd = m := by
  have hmemory : m.storedToEnd.memory = m.memory := by
    refine Memory.ext_byteAt fun a ha => ?_
    rw [storedToEnd, Memory.byteAt_ofBytes ha, if_neg (by omega)]
  exact congrArg (fun memory => { m with memory := memory }) hmemory

/-- there is nothing to load where I lies outside memory -/
theorem loadedToEnd_of_outside {m : Machine} (h : Memory.size ≤ m.i.toNat) : m.loadedToEnd = m := by
  have hv : m.loadedToEnd.v = m.v := by
    refine registers_ext fun r => ?_
    rw [getV_loadedToEnd, if_neg (by omega)]
  exact congrArg (fun v => { m with v := v }) hv

theorem storeRegisters_after_fault {m : Machine} {x : Register} {f : Fault}
    (h : (m.storeRegisters (upTo x)).2 = some f) : (m.storeRegisters (upTo x)).1 = m.storedToEnd := by
  have houtside : m.i.toNat + x.val ≥ Memory.size := by
    rw [storeRegisters_upTo_fault, Option.ite_none_right_eq_some] at h
    exact h.1
  have hbyte := m.byteAt_storeRegisters x
  obtain ⟨memory, hframe⟩ := m.storeRegisters_frame (upTo x)
  rw [hframe] at hbyte ⊢
  have hmemory : memory = m.storedToEnd.memory := by
    refine Memory.ext_byteAt fun a ha => ?_
    rw [hbyte a, room_of_outside houtside, storedToEnd, Memory.byteAt_ofBytes ha]
    by_cases hin : m.i.toNat ≤ a
    · rw [if_pos ⟨hin, by omega⟩, if_pos hin]
    · rw [if_neg fun both => hin both.1, if_neg hin]
  rw [hmemory]
  rfl

theorem loadRegisters_after_fault {m : Machine} {x : Register} {f : Fault}
    (h : (m.loadRegisters (upTo x)).2 = some f) : (m.loadRegisters (upTo x)).1 = m.loadedToEnd := by
  have houtside : m.i.toNat + x.val ≥ Memory.size := by
    rw [loadRegisters_upTo_fault, Option.ite_none_right_eq_some] at h
    exact h.1
  have hreg := m.getV_loadRegisters x
  obtain ⟨v, hframe⟩ := m.loadRegisters_frame (upTo x)
  rw [hframe] at hreg ⊢
  have hv : v = m.loadedToEnd.v := by
    refine registers_ext (m := { m with v := v }) fun r => ?_
    rw [hreg r, room_of_outside houtside, getV_loadedToEnd]
    by_cases hin : m.i.toNat + r.val < Memory.size
    · rw [if_pos hin, if_pos (by omega)]
    · rw [if_neg hin, if_neg (by omega)]
  rw [hv]
  rfl

/-! ## The other instructions that can fault -/

theorem returnFrom_after_fault {m : Machine} {f : Fault} (h : m.returnFrom.2 = some f) : m.returnFrom.1 = m := by
  unfold returnFrom at h ⊢
  cases hp : m.pop with
  | ok p =>
    rw [hp] at h
    cases h
  | error f' => rfl

theorem callTo_after_fault {m : Machine} {addr : UInt16} {f : Fault} (h : (m.callTo addr).2 = some f) :
    (m.callTo addr).1 = m := by
  unfold callTo at h ⊢
  cases hp : m.push m.pc with
  | ok m' =>
    rw [hp] at h
    cases h
  | error f' => rfl

theorem drawAt_after_fault {m : Machine} {x y : Register} {rows : Nat} {f : Fault}
    (h : (m.drawAt x y rows).2 = some f) : (m.drawAt x y rows).1 = m.setV flag 0 := by
  unfold drawAt at h ⊢
  cases hd : (m.setV flag 0).draw (m.getV x) (m.getV y) rows with
  | ok drawn =>
    simp only [hd] at h
    cases h
  | error f' => simp only [hd]

theorem skipOnKey_after_fault {m : Machine} {x : Register} {pressed : Bool} {f : Fault}
    (h : (m.skipOnKey x pressed).2 = some f) : (m.skipOnKey x pressed).1 = m := by
  unfold skipOnKey at h ⊢
  cases hk : m.keypad.isPressed (m.getV x) with
  | ok down =>
    rw [hk] at h
    cases h
  | error f' => rfl

theorem storeDecimal_after_fault {m : Machine} {x : Register} {f : Fault} (h : (m.storeDecimal x).2 = some f) :
    (m.storeDecimal x).1 = m := by
  unfold storeDecimal at h ⊢
  cases hw : m.withMemory (m.memory.write m.i (Bcd.unpack (Bcd.ofByte (m.getV x)))) with
  | ok m' =>
    rw [hw] at h
    cases h
  | error f' => rfl

end Machine

/-! ## All instructions -/

/-- what is left of a machine after an instruction that faulted on it -/
def Instruction.afterFault (m : Machine) : Instruction → Machine
  | .addIndex x => { m with i := m.i + (m.getV x).toUInt16 }
  | .draw _ _ _ => m.setV Machine.flag 0
  | .store _ => m.storedToEnd
  | .load _ => m.loadedToEnd
  | _ => m

variable {σ : Type} [Input σ]

theorem awaitKey_after_fault {m : Machine} {dev : σ} {x : Register} {f : Fault}
    (h : (awaitKey m dev x).fault = some f) : (awaitKey m dev x).machine = m := by
  unfold awaitKey at h ⊢
  rcases hk : (Input.await dev).result with why | _ | key
  · simp only [hk]
  · simp only [hk] at h
    cases h
  · simp only [hk] at h ⊢
    by_cases hlt : key.toNat < 16
    · rw [if_pos hlt] at h
      cases h
    · rw [if_neg hlt]

/-- **After a fault.** An instruction that faults leaves what it did on the way, and nothing else is different. -/
theorem execute_after_fault {ins : Instruction} {m : Machine} {dev : σ} {f : Fault}
    (h : (execute ins m dev).val.fault = some f) : (execute ins m dev).val.machine = ins.afterFault m := by
  cases ins with
  | ret => exact Machine.returnFrom_after_fault h
  | call addr => exact Machine.callTo_after_fault h
  | draw x y rows => exact Machine.drawAt_after_fault h
  | skipPressed x => exact Machine.skipOnKey_after_fault h
  | skipReleased x => exact Machine.skipOnKey_after_fault h
  | awaitKey x => exact awaitKey_after_fault h
  | addIndex x => rfl
  | decimal x => exact Machine.storeDecimal_after_fault h
  | store x => exact Machine.storeRegisters_after_fault h
  | load x => exact Machine.loadRegisters_after_fault h
  -- the others never fault
  | _ => cases h

/-- a block transfer faults when its last address lies outside memory, and names the first address that does -/
theorem execute_transfer_fault {ins : Instruction} {x : Register} (hx : ins = .store x ∨ ins = .load x) (m : Machine)
    (dev : σ) : (execute ins m dev).val.fault =
      if m.i.toNat + x.val ≥ Memory.size then some (.outOfBounds (max m.i.toNat Memory.size)) else none := by
  rcases hx with rfl | rfl
  · exact m.storeRegisters_upTo_fault x
  · exact m.loadRegisters_upTo_fault x

/-- **Opcodes that fault.** Take any opcode that stands for an instruction, on any machine, with any input device. If it
faults, the machine afterwards is the one before it, apart from the sum in I for ADD I, Vx, the cleared VF for DRW, the
bytes from I to the end of memory for LD [I], Vx, which then hold V0, V1 and so on, and the registers that these bytes
are loaded into for LD Vx, [I]. Where I lies outside memory the last two move nothing. These two fault exactly if I + x
lies outside memory, and the address in the fault is the first one outside, or I when that is further on. -/
theorem opcode_after_fault {opcode : UInt16} {ins : Instruction} (hd : Instruction.decode opcode = some ins)
    (m : Machine) (dev : σ) :
    let out := (execute ins m dev).val
    ins.FieldsOf opcode ∧
    (∀ f, out.fault = some f → out.machine = ins.afterFault m) ∧
    (∀ x, ins = .store x ∨ ins = .load x →
      (out.fault = if m.i.toNat + x.val ≥ Memory.size then some (.outOfBounds (max m.i.toNat Memory.size)) else none) ∧
      (Memory.size ≤ m.i.toNat → out.machine = m)) := by
  intro out
  have hafter : ∀ f, out.fault = some f → out.machine = ins.afterFault m := fun f hf => execute_after_fault hf
  refine ⟨Instruction.fieldsOf_decode hd, hafter, ?_⟩
  intro x hx
  have hfault : out.fault = _ := execute_transfer_fault hx m dev
  refine ⟨hfault, fun houtside => ?_⟩
  rw [hafter _ (hfault.trans (if_pos (Nat.le_add_right_of_le houtside)))]
  rcases hx with rfl | rfl
  · exact Machine.storedToEnd_of_outside houtside
  · exact Machine.loadedToEnd_of_outside houtside

/-- LD V3, [I] with I two bytes before the end of memory: V0 and V1 are loaded, and V2 and V3 keep what they held. -/
theorem load_stops_at_the_end :
    let m : Machine := { Machine.fresh .disabled (.ofSeed 0) with i := 0xFFE, v := Vector.replicate 16 7 }
    let out := (execute (.load 3) m (HeldKeys.ofKeys [] [])).val
    Instruction.decode 0xF365 = some (.load 3) ∧ out.fault = some (.outOfBounds 4096) ∧
      out.machine.v.toList.take 4 = [0, 0, 7, 7] ∧ out.machine.memory = m.memory := by
  intro m out
  have hd : Instruction.decode 0xF365 = some (.load 3) := by decide
  obtain ⟨-, hafter, htransfer⟩ := opcode_after_fault hd m (HeldKeys.ofKeys [] [])
  have hfault : out.fault = some (.outOfBounds 4096) := (htransfer 3 (.inr rfl)).1
  have hmachine : out.machine = m.loadedToEnd := hafter _ hfault
  have hv : m.loadedToEnd.v.toList.take 4 = [0, 0, 7, 7] := by decide +kernel
  rw [hmachine]
  exact ⟨hd, hfault, hv, rfl⟩

end Chip8
