/-
Where control goes. `Flow` lists all that an instruction can do to the program counter and the call stack, whether it
ends well or in a fault; the program counter is past the instruction already when it is carried out.

Results:
- `execute_flow`: every instruction, on every machine and input device, flows in one of these ways;
- `cycle_cases`: a cycle fails to fetch and changes nothing, fails to decode and only moves on, or executes;
- `cycle_stack_cases`: a cycle leaves the stack, puts one address on it, or is a return that takes one off.
`trail` is a run of cycles. Between two of them anything may happen to the machine and the input device - keys go up and
down, timers count, an embedder writes registers or memory - save that the program counter and the stack stay.
-/
import Chip8.Interpreter

namespace Chip8

/-! ## What the longer instructions leave alone -/

/-- storing registers changes nothing but memory -/
theorem Machine.storeRegisters_frame (m : Machine) (rs : List Register) :
    ∃ memory, (m.storeRegisters rs).1 = { m with memory := memory } := by
  induction rs generalizing m with
  | nil => exact ⟨m.memory, rfl⟩
  | cons r rs ih =>
    unfold storeRegisters
    cases hw : m.withMemory (m.memory.writeByte (m.slot r) (m.getV r)) with
    | error f => exact ⟨m.memory, rfl⟩
    | ok m' =>
      obtain ⟨memory, -, rfl⟩ := withMemory_eq_ok hw
      exact ih { m with memory := memory }

/-- loading registers changes nothing but registers -/
theorem Machine.loadRegisters_frame (m : Machine) (rs : List Register) :
    ∃ v, (m.loadRegisters rs).1 = { m with v := v } := by
  induction rs generalizing m with
  | nil => exact ⟨m.v, rfl⟩
  | cons r rs ih =>
    unfold loadRegisters
    cases m.memory.readByte (m.slot r) with
    | error f => exact ⟨m.v, rfl⟩
    | ok b => exact ih (m.setV r b)

/-- drawing changes nothing but the screen, and asks for it to be shown -/
theorem Machine.draw_frame {m : Machine} {x y : UInt8} {rows : Nat} {drawn : Bool × Machine}
    (h : m.draw x y rows = .ok drawn) : ∃ screen, drawn.2 = { m with screen := screen, redraw := true } := by
  unfold draw at h
  cases hr : m.memory.read m.i rows with
  | error f =>
    rw [hr] at h
    cases h
  | ok sprite =>
    rw [hr] at h
    cases h
    exact ⟨_, rfl⟩

/-! ## One instruction -/

/-- the instructions that may skip the next one -/
def Instruction.isSkip : Instruction → Bool
  | skipEqByte _ _ | skipNeByte _ _ | skipEq _ _ | skipNe _ _ | skipPressed _ | skipReleased _ => true
  | _ => false

/-- what an instruction carried out on `m` may do to program counter and stack; the machine and the fault afterwards -/
inductive Flow (m : Machine) : Instruction → Machine → Option Fault → Prop
  /-- on to the next instruction, with or without a fault -/
  | falls {ins : Instruction} {m' : Machine} {fault : Option Fault} (pc : m'.pc = m.pc) (stack : m'.stack = m.stack) :
      Flow m ins m' fault
  | skips {ins : Instruction} {m' : Machine} (skip : ins.isSkip = true) (pc : m'.pc = m.pc + 2)
      (stack : m'.stack = m.stack) : Flow m ins m' none
  /-- back to the instruction that waits for a key, as the user quits -/
  | rewinds {x : Register} {m' : Machine} (pc : m'.pc = m.pc - 2) (stack : m'.stack = m.stack) :
      Flow m (.awaitKey x) m' none
  | jumps {addr : UInt16} {m' : Machine} (pc : m'.pc = addr) (stack : m'.stack = m.stack) : Flow m (.jump addr) m' none
  | jumpsOffset {addr : UInt16} {m' : Machine} (pc : m'.pc = addr + (m.getV 0).toUInt16)
      (stack : m'.stack = m.stack) : Flow m (.jumpOffset addr) m' none
  | calls {addr : UInt16} {m' : Machine} (pc : m'.pc = addr) (stack : m.stack.push m.pc = some m'.stack) :
      Flow m (.call addr) m' none
  | returns {m' : Machine} (stack : m.stack.pop = some (m'.pc, m'.stack)) : Flow m .ret m' none

theorem Flow.skipIf {m : Machine} {ins : Instruction} (h : ins.isSkip = true) (cond : Bool) :
    Flow m ins (m.skipIf cond) none := by
  cases cond with
  | false => exact .falls rfl rfl
  | true => exact .skips h rfl rfl

theorem Flow.skipOnKey {m : Machine} {ins : Instruction} (h : ins.isSkip = true) (x : Register) (pressed : Bool) :
    Flow m ins (m.skipOnKey x pressed).1 (m.skipOnKey x pressed).2 := by
  unfold Machine.skipOnKey
  cases m.keypad.isPressed (m.getV x) with
  | error f => exact .falls rfl rfl
  | ok down => exact .skipIf h _

theorem Flow.returnFrom (m : Machine) : Flow m .ret m.returnFrom.1 m.returnFrom.2 := by
  unfold Machine.returnFrom Machine.pop
  cases h : m.stack.pop with
  | none => exact .falls rfl rfl
  | some p => exact .returns h

theorem Machine.push_of_stack {m : Machine} {addr : UInt16} {stack : CallStack} (h : m.stack.push addr = some stack) :
    m.push addr = .ok { m with stack := stack } := by
  rw [push, h]

theorem Flow.callTo (m : Machine) (addr : UInt16) : Flow m (.call addr) (m.callTo addr).1 (m.callTo addr).2 := by
  cases h : m.stack.push m.pc with
  | none =>
    rw [Machine.callTo, Machine.push, h]
    exact .falls rfl rfl
  | some stack =>
    rw [Machine.callTo, Machine.push_of_stack h]
    exact .calls rfl h

theorem Flow.drawAt (m : Machine) (x y : Register) (rows : Nat) (ins : Instruction) :
    Flow m ins (m.drawAt x y rows).1 (m.drawAt x y rows).2 := by
  unfold Machine.drawAt
  cases hd : (m.setV Machine.flag 0).draw (m.getV x) (m.getV y) rows with
  | error f =>
    simp only [hd]
    exact .falls rfl rfl
  | ok drawn =>
    obtain ⟨screen, e⟩ := Machine.draw_frame hd
    simp only [hd, e]
    exact .falls rfl rfl

theorem Flow.storeDecimal (m : Machine) (x : Register) (ins : Instruction) :
    Flow m ins (m.storeDecimal x).1 (m.storeDecimal x).2 := by
  unfold Machine.storeDecimal
  cases hw : m.withMemory (m.memory.write m.i (Bcd.unpack (Bcd.ofByte (m.getV x)))) with
  | error f => exact .falls rfl rfl
  | ok m' =>
    obtain ⟨memory, -, rfl⟩ := Machine.withMemory_eq_ok hw
    exact .falls rfl rfl

section
variable {σ : Type} [Input σ]

theorem Flow.awaitKey (m : Machine) (dev : σ) (x : Register) :
    Flow m (.awaitKey x) (Chip8.awaitKey m dev x).machine (Chip8.awaitKey m dev x).fault := by
  unfold Chip8.awaitKey
  cases hk : (Input.await dev).result with
  | error why =>
    simp only [hk]
    exact .falls rfl rfl
  | ok key =>
    simp only [hk]
    cases key with
    | none => exact .rewinds rfl rfl
    | some key =>
      simp only
      split
      · exact .falls rfl rfl
      · exact .falls rfl rfl

/-- **Control flow.** Whatever the machine and the input device, an instruction flows in one of the listed ways. -/
theorem execute_flow (ins : Instruction) (m : Machine) (dev : σ) :
    Flow m ins (execute ins m dev).val.machine (execute ins m dev).val.fault := by
  cases ins with
  | ret => exact .returnFrom m
  | jump addr => exact .jumps rfl rfl
  | call addr => exact .callTo m addr
  | skipEqByte x byte => exact .skipIf rfl _
  | skipNeByte x byte => exact .skipIf rfl _
  | skipEq x y => exact .skipIf rfl _
  | skipNe x y => exact .skipIf rfl _
  | skipPressed x => exact .skipOnKey rfl x true
  | skipReleased x => exact .skipOnKey rfl x false
  | jumpOffset addr => exact .jumpsOffset rfl rfl
  | awaitKey x => exact .awaitKey m dev x
  | draw x y rows => exact .drawAt m x y rows.val _
  | decimal x => exact .storeDecimal m x _
  | store x =>
    obtain ⟨memory, h⟩ := m.storeRegisters_frame (Machine.upTo x)
    show Flow m _ (m.storeRegisters (Machine.upTo x)).1 _
    rw [h]
    exact .falls rfl rfl
  | load x =>
    obtain ⟨v, h⟩ := m.loadRegisters_frame (Machine.upTo x)
    show Flow m _ (m.loadRegisters (Machine.upTo x)).1 _
    rw [h]
    exact .falls rfl rfl
  | _ => exact .falls rfl rfl

end

/-! ## Fetching -/

theorem Memory.readWord_eq_ok {m : Memory} {addr w : UInt16} (h : m.readWord addr = .ok w) :
    addr.toNat + 2 ≤ Memory.size := by
  unfold readWord at h
  cases hc : checkRange addr 2 with
  | error f =>
    rw [hc] at h
    cases h
  | ok u => exact ((checkRange_eq_ok_iff addr 2).1 hc).2

theorem Machine.fetch_of_readWord {m : Machine} {opcode : UInt16} (h : m.memory.readWord m.pc = .ok opcode) :
    m.fetch = .ok (opcode, m.skip) := by
  rw [fetch, h]
  rfl

/-- a fetch that goes well reads the word at the program counter, inside memory, and moves past it -/
theorem Machine.fetch_eq_ok {m fetched : Machine} {opcode : UInt16} (h : m.fetch = .ok (opcode, fetched)) :
    m.memory.readWord m.pc = .ok opcode ∧ fetched = m.skip ∧ m.pc.toNat + 2 ≤ Memory.size := by
  cases hr : m.memory.readWord m.pc with
  | error f =>
    rw [fetch, hr] at h
    cases h
  | ok w =>
    rw [fetch_of_readWord hr] at h
    cases h
    exact ⟨rfl, rfl, Memory.readWord_eq_ok hr⟩

/-- up to the end of memory, moving past an instruction does not wrap around -/
theorem Machine.toNat_skip_pc {m : Machine} (h : m.pc.toNat ≤ Memory.size) : m.skip.pc.toNat = m.pc.toNat + 2 := by
  have h2 : (2 : UInt16).toNat = 2 := rfl
  unfold Memory.size at h
  rw [skip, jump, UInt16.toNat_add, h2]
  omega

/-! ## One cycle -/

namespace Interpreter

variable {σ δ : Type}

/-- the world acts on the machine and the input device, but not on program counter and stack -/
def disturb (s : Interpreter σ δ) (change : Machine → σ → Machine × σ) : Interpreter σ δ :=
  let after := change s.machine s.input
  { s with machine := { after.1 with pc := s.machine.pc, stack := s.machine.stack }, input := after.2 }

@[simp] theorem disturb_pc (s : Interpreter σ δ) (change : Machine → σ → Machine × σ) :
    (s.disturb change).machine.pc = s.machine.pc := rfl

variable [Input σ]

/-- **A cycle.** It fails to fetch and changes nothing, or fetches what is no instruction and only moves on, or executes
an instruction. -/
theorem cycle_cases (s : Interpreter σ δ) :
    (∃ f, s.machine.fetch = .error f ∧ s.cycle.val = (s, some f)) ∨
    (∃ opcode, s.machine.fetch = .ok (opcode, s.machine.skip) ∧ Instruction.decode opcode = none ∧
      s.cycle.val = ({ s with machine := s.machine.skip, cycles := s.cycles + 1 },
        some (.invalidOpcode opcode s.machine.pc))) ∨
    (∃ opcode ins, s.machine.fetch = .ok (opcode, s.machine.skip) ∧ Instruction.decode opcode = some ins ∧
      s.cycle.val = ({ s with
        machine := (execute ins s.machine.skip s.input).val.machine
        input := (execute ins s.machine.skip s.input).val.input
        cycles := s.cycles + 1 }, (execute ins s.machine.skip s.input).val.fault)) := by
  cases hf : s.machine.fetch with
  | error f => exact Or.inl ⟨f, rfl, by simp only [cycle, hf, Noted.val_pure]⟩
  | ok p =>
    obtain ⟨opcode, fetched⟩ := p
    obtain ⟨-, rfl, -⟩ := Machine.fetch_eq_ok hf
    cases hd : Instruction.decode opcode with
    | none => exact Or.inr (Or.inl ⟨opcode, rfl, hd, by simp only [cycle, hf, hd, Noted.val_pure]⟩)
    | some ins =>
      exact Or.inr (Or.inr ⟨opcode, ins, rfl, hd, by simp only [cycle, hf, hd, Noted.val_bind, Noted.val_pure]⟩)

/-- **The stack in a cycle.** It stays, or one address is put on it, or the cycle is a return that goes to the address
it takes off. -/
theorem cycle_stack_cases (s : Interpreter σ δ) :
    let t := s.cycle.val.1
    t.machine.stack.toList = s.machine.stack.toList ∨
    (∃ addr, t.machine.stack.toList = addr :: s.machine.stack.toList) ∨
    (∃ opcode, s.machine.fetch = .ok (opcode, s.machine.skip) ∧ Instruction.decode opcode = some .ret ∧
      s.cycle.val.2 = none ∧ s.machine.stack.toList = t.machine.pc :: t.machine.stack.toList) := by
  intro t
  rcases cycle_cases s with ⟨f, hf, hc⟩ | ⟨opcode, hf, hd, hc⟩ | ⟨opcode, ins, hf, hd, hc⟩
  · exact Or.inl (by simp only [t, hc])
  · exact Or.inl (by simp only [t, hc]; rfl)
  · have ht : t.machine = (execute ins s.machine.skip s.input).val.machine := by simp only [t, hc]
    have hfault : s.cycle.val.2 = (execute ins s.machine.skip s.input).val.fault := by simp only [hc]
    have hflow := execute_flow ins s.machine.skip s.input
    rw [← ht, ← hfault] at hflow
    generalize hfl : s.cycle.val.2 = fault at hflow ⊢
    cases hflow with
    | falls _ stack => exact Or.inl (congrArg CallStack.toList stack)
    | skips _ _ stack => exact Or.inl (congrArg CallStack.toList stack)
    | rewinds _ stack => exact Or.inl (congrArg CallStack.toList stack)
    | jumps _ stack => exact Or.inl (congrArg CallStack.toList stack)
    | jumpsOffset _ stack => exact Or.inl (congrArg CallStack.toList stack)
    | calls _ stack => exact Or.inr (Or.inl ⟨_, CallStack.toList_push stack⟩)
    | returns stack => exact Or.inr (Or.inr ⟨opcode, hf, hd, rfl, CallStack.toList_pop stack⟩)

/-! ## Runs of cycles -/

/-- the interpreter after `n` cycles, whether they fail or not, with the world acting after each -/
def trail (world : Nat → Machine → σ → Machine × σ) (s : Interpreter σ δ) : Nat → Interpreter σ δ
  | 0 => s
  | n + 1 => (trail world s n).cycle.val.1.disturb (world n)

end Interpreter

end Chip8
