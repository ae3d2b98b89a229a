/-
Which faults a program can bring about. `Fault.ofProgram` are the five kinds that stand for something a program did
wrong; the other three come from loading, from a register number that an embedder chose, and from a device.

Results:
- `execute_raises`: the faults of each instruction;
- `execute_fault`: an instruction that faults does so with one of the five, unless it waits for a key and the input
  device failed in that very wait;
- `cycle_fault`: the same of a cycle, with fetching and decoding.
-/
import Chip8.Proofs.Flow

namespace Chip8

/-- the faults that stand for something a program did wrong -/
def Fault.ofProgram : Fault → Bool
  | invalidOpcode _ _ | stackOverflow _ | stackUnderflow _ | outOfBounds _ | noSuchKey _ => true
  | programTooLarge _ _ | noSuchRegister _ | io _ => false

/-- none of them ends a run -/
theorem Fault.recoverable_of_ofProgram {f : Fault} (h : f.ofProgram = true) : f.recoverable = true := by
  cases f with
  | programTooLarge len max => cases h
  | io text => cases h
  | _ => rfl

/-- an address or a key that the program asked for and that does not exist -/
def Fault.ofOperand : Fault → Bool
  | outOfBounds _ | noSuchKey _ => true
  | _ => false

theorem Fault.ofProgram_of_ofOperand {f : Fault} (h : f.ofOperand = true) : f.ofProgram = true := by
  cases f with
  | outOfBounds addr => rfl
  | noSuchKey key => rfl
  | _ => cases h

/-- an answer that was only passed on fails as it did -/
theorem eq_error_of_map {α β : Type} {e : Except Fault α} {g : α → β} {f : Fault} (h : e.map g = .error f) :
    e = .error f := by
  cases e with
  | error f' =>
    cases h
    rfl
  | ok a => cases h

/-! ## Memory -/

namespace Memory

theorem checkRange_fault {addr : UInt16} {len : Nat} {f : Fault} (h : checkRange addr len = .error f) :
    f.ofOperand = true := by
  unfold checkRange at h
  split at h
  case isTrue =>
    cases h
    rfl
  case isFalse =>
    split at h
    case isTrue =>
      cases h
      rfl
    case isFalse => cases h

/-- an access that goes through the check fails only as the check does -/
theorem map_checkRange_fault {α : Type} {addr : UInt16} {len : Nat} {g : Unit → α} {f : Fault}
    (h : (checkRange addr len).map g = .error f) : f.ofOperand = true :=
  checkRange_fault (eq_error_of_map h)

end Memory

/-! ## One instruction -/

namespace Machine

theorem withMemory_fault {m : Machine} {addr : UInt16} {data : List UInt8} {f : Fault}
    (h : m.withMemory (m.memory.write addr data) = .error f) : f.ofOperand = true :=
  Memory.map_checkRange_fault (eq_error_of_map h)

theorem returnFrom_fault (m : Machine) : ∀ f ∈ m.returnFrom.2, m.stack.pop = none ∧ f = .stackUnderflow m.pc := by
  unfold returnFrom pop
  intro f hf
  cases hp : m.stack.pop with
  | none =>
    simp only [hp] at hf
    cases hf
    exact ⟨rfl, rfl⟩
  | some p =>
    simp only [hp] at hf
    cases hf

theorem callTo_fault (m : Machine) (addr : UInt16) :
    ∀ f ∈ (m.callTo addr).2, m.stack.push m.pc = none ∧ f = .stackOverflow m.pc := by
  unfold callTo push
  intro f hf
  cases hp : m.stack.push m.pc with
  | none =>
    simp only [hp] at hf
    cases hf
    exact ⟨rfl, rfl⟩
  | some stack =>
    simp only [hp] at hf
    cases hf

theorem drawAt_fault (m : Machine) (x y : Register) (rows : Nat) :
    ∀ f ∈ (m.drawAt x y rows).2, f.ofOperand = true := by
  unfold drawAt
  intro f hf
  cases hd : (m.setV flag 0).draw (m.getV x) (m.getV y) rows with
  | error f' =>
    simp only [hd] at hf
    cases hf
    exact Memory.map_checkRange_fault (eq_error_of_map hd)
  | ok drawn =>
    simp only [hd] at hf
    cases hf

theorem skipOnKey_fault (m : Machine) (x : Register) (pressed : Bool) :
    ∀ f ∈ (m.skipOnKey x pressed).2, f.ofOperand = true := by
  unfold skipOnKey Keypad.isPressed
  intro f hf
  by_cases hk : (m.getV x).toNat < 16
  · simp only [dif_pos hk] at hf
    cases hf
  · simp only [dif_neg hk] at hf
    cases hf
    rfl

theorem addToIndex_fault (m : Machine) (x : Register) : ∀ f ∈ (m.addToIndex x).2, f.ofOperand = true := by
  unfold addToIndex
  intro f hf
  by_cases hs : (m.i + (m.getV x).toUInt16).toNat ≥ Memory.size
  · simp only [if_pos hs] at hf
    cases hf
    rfl
  · simp only [if_neg hs] at hf
    cases hf

theorem storeDecimal_fault (m : Machine) (x : Register) : ∀ f ∈ (m.storeDecimal x).2, f.ofOperand = true := by
  unfold storeDecimal
  intro f hf
  cases hw : m.withMemory (m.memory.write m.i (Bcd.unpack (Bcd.ofByte (m.getV x)))) with
  | error f' =>
    simp only [hw] at hf
    cases hf
    exact withMemory_fault hw
  | ok m' =>
    simp only [hw] at hf
    cases hf

theorem storeRegisters_fault (m : Machine) (rs : List Register) :
    ∀ f ∈ (m.storeRegisters rs).2, f.ofOperand = true := by
  induction rs generalizing m with
  | nil =>
    intro f hf
    cases hf
  | cons r rs ih =>
    unfold storeRegisters
    intro f hf
    cases hw : m.withMemory (m.memory.writeByte (m.slot r) (m.getV r)) with
    | error f' =>
      simp only [hw] at hf
      cases hf
      exact withMemory_fault hw
    | ok m' =>
      simp only [hw] at hf
      exact ih m' f hf

theorem loadRegisters_fault (m : Machine) (rs : List Register) :
    ∀ f ∈ (m.loadRegisters rs).2, f.ofOperand = true := by
  induction rs generalizing m with
  | nil =>
    intro f hf
    cases hf
  | cons r rs ih =>
    unfold loadRegisters
    intro f hf
    cases hr : m.memory.readByte (m.slot r) with
    | error f' =>
      simp only [hr] at hf
      cases hf
      exact Memory.map_checkRange_fault hr
    | ok b =>
      simp only [hr] at hf
      exact ih (m.setV r b) f hf

end Machine

variable {σ : Type} [Input σ]

/-- waiting for a key fails when the device does, or on a key that is not on the keypad -/
theorem awaitKey_fault (m : Machine) (dev : σ) (x : Register) : ∀ f ∈ (awaitKey m dev x).fault,
    f.ofOperand = true ∨ ∃ why, f = .io why ∧ (Input.await dev).result = .error why := by
  unfold awaitKey
  intro f hf
  cases hk : (Input.await dev).result with
  | error why =>
    simp only [hk] at hf
    cases hf
    exact Or.inr ⟨why, rfl, rfl⟩
  | ok key =>
    simp only [hk] at hf
    cases key with
    | none => cases hf
    | some key =>
      by_cases hlt : key.toNat < 16
      · simp only [if_pos hlt] at hf
        cases hf
      · simp only [if_neg hlt] at hf
        cases hf
        exact Or.inl rfl

/-- the faults that an instruction can raise; those of the stack name the program counter, which is past the instruction
already, and no other names the address of an instruction -/
inductive Raises (m : Machine) (dev : σ) : Instruction → Fault → Prop
  | operand {ins : Instruction} {f : Fault} (h : f.ofOperand = true) : Raises m dev ins f
  | overflow {addr : UInt16} (full : m.stack.push m.pc = none) : Raises m dev (.call addr) (.stackOverflow m.pc)
  | underflow (empty : m.stack.pop = none) : Raises m dev .ret (.stackUnderflow m.pc)
  /-- a wait for a key on a device that fails -/
  | device {x : Register} {why : String} (failed : (Input.await dev).result = .error why) :
      Raises m dev (.awaitKey x) (.io why)

/-- **Faults of an instruction.** An instruction raises the listed faults only. -/
theorem execute_raises {ins : Instruction} {m : Machine} {dev : σ} {f : Fault}
    (hf : f ∈ (execute ins m dev).val.fault) : Raises m dev ins f := by
  cases ins with
  | ret =>
    obtain ⟨hempty, rfl⟩ := m.returnFrom_fault f hf
    exact .underflow hempty
  | call addr =>
    obtain ⟨hfull, rfl⟩ := m.callTo_fault addr f hf
    exact .overflow hfull
  | draw x y rows => exact .operand (m.drawAt_fault x y rows.val f hf)
  | skipPressed x => exact .operand (m.skipOnKey_fault x true f hf)
  | skipReleased x => exact .operand (m.skipOnKey_fault x false f hf)
  | addIndex x => exact .operand (m.addToIndex_fault x f hf)
  | decimal x => exact .operand (m.storeDecimal_fault x f hf)
  | store x => exact .operand (m.storeRegisters_fault (Machine.upTo x) f hf)
  | load x => exact .operand (m.loadRegisters_fault (Machine.upTo x) f hf)
  | awaitKey x =>
    rcases awaitKey_fault m dev x f hf with h | ⟨why, rfl, hwhy⟩
    · exact .operand h
    · exact .device hwhy
  | _ => cases hf

/-- an instruction that faults does so with something the program did wrong, unless it waits for a key and the input
device fails -/
theorem execute_fault (ins : Instruction) (m : Machine) (dev : σ) : ∀ f ∈ (execute ins m dev).val.fault,
    f.ofProgram = true ∨
      ∃ x why, ins = .awaitKey x ∧ f = .io why ∧ (Input.await dev).result = .error why := by
  intro f hf
  cases execute_raises hf with
  | operand h => exact Or.inl (Fault.ofProgram_of_ofOperand h)
  | overflow _ => exact Or.inl rfl
  | underflow _ => exact Or.inl rfl
  | device hwhy => exact Or.inr ⟨_, _, rfl, rfl, hwhy⟩

/-! ## One cycle -/

namespace Interpreter

variable {δ : Type}

/-- a cycle would execute this instruction -/
def Executes (s : Interpreter σ δ) (ins : Instruction) : Prop :=
  ∃ opcode, s.machine.fetch = .ok (opcode, s.machine.skip) ∧ Instruction.decode opcode = some ins

/-- **Faults of a cycle.** Fetching, decoding and executing fault only with something the program did wrong, unless the
instruction waits for a key and the input device fails. -/
theorem cycle_fault (s : Interpreter σ δ) : ∀ f ∈ s.cycle.val.2,
    f.ofProgram = true ∨
      ∃ x why, s.Executes (.awaitKey x) ∧ f = .io why ∧ (Input.await s.input).result = .error why := by
  intro f hf
  rcases cycle_cases s with ⟨f', hfetch, hc⟩ | ⟨opcode, hfetch, hd, hc⟩ | ⟨opcode, ins, hfetch, hd, hc⟩
  · rw [hc] at hf
    cases hf
    exact Or.inl (Fault.ofProgram_of_ofOperand (Memory.map_checkRange_fault (eq_error_of_map hfetch)))
  · rw [hc] at hf
    cases hf
    exact Or.inl rfl
  · rw [hc] at hf
    rcases execute_fault ins s.machine.skip s.input f hf with h | ⟨x, why, rfl, h, hwhy⟩
    · exact Or.inl h
    · exact Or.inr ⟨x, why, ⟨opcode, hfetch, hd⟩, h, hwhy⟩

/-- a cycle that waits for a key on a device that fails hands its trouble on -/
theorem cycle_fault_of_await {s : Interpreter σ δ} {x : Register} {why : String} (hx : s.Executes (.awaitKey x))
    (hwhy : (Input.await s.input).result = .error why) : s.cycle.val.2 = some (.io why) := by
  obtain ⟨opcode, hfetch, hd⟩ := hx
  simp only [cycle, hfetch, hd, Noted.val_bind, Noted.val_pure, execute, awaitKey, hwhy]

end Interpreter

end Chip8
