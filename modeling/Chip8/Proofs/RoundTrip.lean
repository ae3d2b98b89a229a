/-
Storing registers and loading them back. LD [I], Vx and LD Vx, [I] walk the same registers and the same addresses and
stop at the same place, so that what the one has stored the other brings back, also where memory ends before Vx.

Results:
- `getV_load_store`: loading after storing gives the registers stored, up to the end of memory;
- `transfers_agree`: the two transfers end alike;
- `store_load_round_trip`: both instructions with anything in between that leaves I and memory alone.
-/
import Chip8.Proofs.AfterFault
import Chip8.Proofs.OpcodeDigits

namespace Chip8

namespace Instruction

theorem decode_store (x : Register) : decode (Opcode.ofDigits 0xF x 5 5) = some (.store x) := by
  unfold decode
  rw [Opcode.named_fifteen, Opcode.x_ofDigits]
  rfl

theorem decode_load (x : Register) : decode (Opcode.ofDigits 0xF x 6 5) = some (.load x) := by
  unfold decode
  rw [Opcode.named_fifteen, Opcode.x_ofDigits]
  rfl

end Instruction

namespace Machine

/-- another machine with the I and the memory of this one -/
def overlaid (m w : Machine) : Machine :=
  { w with i := m.i, memory := m.memory }

/-- storing leaves I alone -/
theorem storeRegisters_i (m : Machine) (rs : List Register) : (m.storeRegisters rs).1.i = m.i := by
  obtain ⟨memory, hframe⟩ := m.storeRegisters_frame rs
  rw [hframe]

/-- where there is room for a register, its byte of the block holds it -/
theorem byteAt_stored (m : Machine) (x r : Register) (h : r.val < m.room (x.val + 1)) :
    (m.storeRegisters (upTo x)).1.memory.byteAt (m.i.toNat + r.val) = m.getV r := by
  have hslot : Fin.ofNat 16 (m.i.toNat + r.val - m.i.toNat) = r := by
    apply Fin.ext
    show (m.i.toNat + r.val - m.i.toNat) % 16 = r.val
    have := r.isLt
    omega
  rw [byteAt_storeRegisters, if_pos ⟨Nat.le_add_right .., Nat.add_lt_add_left h _⟩, hslot]

/-- **Loading back.** The registers that were stored come back, as far as there was room for them. The others are those
of the machine that loads. -/
theorem getV_load_store (m w : Machine) (x r : Register) :
    (((m.storeRegisters (upTo x)).1.overlaid w).loadRegisters (upTo x)).1.getV r =
      if r.val < m.room (x.val + 1) then m.getV r else w.getV r := by
  let between := (m.storeRegisters (upTo x)).1.overlaid w
  have hi : between.i = m.i := m.storeRegisters_i (upTo x)
  have hroom : between.room (x.val + 1) = m.room (x.val + 1) := by rw [room, hi, room]
  calc (between.loadRegisters (upTo x)).1.getV r
      = if r.val < between.room (x.val + 1) then between.memory.byteAt (between.i.toNat + r.val)
          else between.getV r := between.getV_loadRegisters x r
    _ = if r.val < m.room (x.val + 1) then between.memory.byteAt (m.i.toNat + r.val) else w.getV r := by
        rw [hroom, hi]
        rfl
    _ = if r.val < m.room (x.val + 1) then m.getV r else w.getV r := by
        by_cases h : r.val < m.room (x.val + 1)
        · rw [if_pos h, if_pos h]
          exact m.byteAt_stored x r h
        · rw [if_neg h, if_neg h]

/-- **The two transfers agree.** On machines with the same I they both go well, or fault at the same address. -/
theorem transfers_agree {m w : Machine} (hi : w.i = m.i) (x : Register) :
    (w.loadRegisters (upTo x)).2 = (m.storeRegisters (upTo x)).2 := by
  rw [loadRegisters_upTo_fault, storeRegisters_upTo_fault, hi]

/-- storing goes well when there is room for all registers -/
theorem storeRegisters_fault_room (m : Machine) (x : Register) : (m.storeRegisters (upTo x)).2 =
    if m.room (x.val + 1) = x.val + 1 then none else some (.outOfBounds (max m.i.toNat Memory.size)) := by
  rw [storeRegisters_upTo_fault]
  by_cases h : m.i.toNat + x.val ≥ Memory.size
  · rw [if_pos h, if_neg (by unfold room; omega)]
  · rw [if_neg h, if_pos (by unfold room; omega)]

end Machine

variable {σ : Type} [Input σ]

/-- **Store and load.** Take LD [I], Vx on any machine and then LD Vx, [I], and let anything happen in between that
leaves I and memory alone: the registers and all else may be those of any machine `w`. Let `k` be how many of the
registers V0 to Vx have an address in memory, counted from I without wrapping around. Then V0 to V(k-1) hold what they
held before the store, and every other register what it was given in between. I is as before, no byte of memory but the
`k` from I on is different, and those hold the registers. The two instructions end alike: well when `k` is all of them,
and otherwise with a fault that names the first address outside memory, or I when that is further on. -/
theorem store_load_round_trip (m w : Machine) (x : Register) (dev dev' : σ) :
    let k := min (x.val + 1) (Memory.size - m.i.toNat)
    ∃ store load, Instruction.decode (Opcode.ofDigits 0xF x 5 5) = some store ∧
      Instruction.decode (Opcode.ofDigits 0xF x 6 5) = some load ∧
      let stored := (execute store m dev).val
      let between := stored.machine.overlaid w
      let loaded := (execute load between dev').val
      (∀ r, loaded.machine.getV r = if r.val < k then m.getV r else w.getV r) ∧
      loaded.machine.i = m.i ∧
      (∀ addr, loaded.machine.memory.byteAt addr =
        if m.i.toNat ≤ addr ∧ addr < m.i.toNat + k then m.getV (Fin.ofNat 16 (addr - m.i.toNat))
        else m.memory.byteAt addr) ∧
      loaded.fault = stored.fault ∧
      stored.fault = (if k = x.val + 1 then none else some (.outOfBounds (max m.i.toNat Memory.size))) ∧
      stored.machine = { m with memory := stored.machine.memory } ∧
      loaded.machine = { between with v := loaded.machine.v } := by
  intro k
  refine ⟨.store x, .load x, Instruction.decode_store x, Instruction.decode_load x, ?_⟩
  intro stored between loaded
  have hi : between.i = m.i := m.storeRegisters_i (Machine.upTo x)
  have hstored : stored.machine = { m with memory := stored.machine.memory } := by
    obtain ⟨memory, hframe⟩ := m.storeRegisters_frame (Machine.upTo x)
    show (m.storeRegisters (Machine.upTo x)).1 = { m with memory := (m.storeRegisters (Machine.upTo x)).1.memory }
    rw [hframe]
  have hloaded : loaded.machine = { between with v := loaded.machine.v } := by
    obtain ⟨v, hframe⟩ := between.loadRegisters_frame (Machine.upTo x)
    show (between.loadRegisters (Machine.upTo x)).1 =
      { between with v := (between.loadRegisters (Machine.upTo x)).1.v }
    rw [hframe]
  have hmemory : loaded.machine.memory = (m.storeRegisters (Machine.upTo x)).1.memory := by
    rw [hloaded]
    rfl
  refine ⟨fun r => m.getV_load_store w x r, ?_, ?_, Machine.transfers_agree hi x, m.storeRegisters_fault_room x,
    hstored, hloaded⟩
  · rw [hloaded]
    exact hi
  · intro addr
    rw [hmemory]
    exact m.byteAt_storeRegisters x addr

end Chip8
