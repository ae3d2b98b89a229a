/-
Addresses that a program can reach. The program counter alone is not bounded by its own steps, as a return goes wherever
the stack says; with the live part of the stack it is (`Bounded`). A fetch that goes well puts the program counter into
[2, 0x1000], which is what a call then stores, and from there a skip reaches 0x1002 and a jump by V0 reaches 0x10FE.

Results:
- `Bounded.cycle`, `Bounded.trail`: cycles keep the bounds, whatever the world does to the rest of the machine;
- `addresses_bounded`: they hold from a new machine on, for every program, setting, input and number of cycles, and no
  sum on the program counter wraps around.
-/
import Chip8.Proofs.Flow

namespace Chip8

open Interpreter

/-- the program counter is at most 0x10FE, and addresses on the stack are those behind an instruction in memory -/
structure Bounded (m : Machine) : Prop where
  pc_le : m.pc.toNat ≤ 0x10FE
  live : ∀ a ∈ m.stack.toList, 2 ≤ a.toNat ∧ a.toNat ≤ 0x1000

/-- no sum that a cycle forms with the program counter leaves the sixteen bits -/
structure NoWrap (m : Machine) : Prop where
  fetch : ∀ opcode fetched, m.fetch = .ok (opcode, fetched) → fetched.pc.toNat = m.pc.toNat + 2
  skip : ∀ opcode fetched, m.fetch = .ok (opcode, fetched) → fetched.skip.pc.toNat = fetched.pc.toNat + 2
  jumpOffset : ∀ opcode fetched addr, m.fetch = .ok (opcode, fetched) →
    Instruction.decode opcode = some (.jumpOffset addr) →
    (addr + (fetched.getV 0).toUInt16).toNat = addr.toNat + (fetched.getV 0).toNat
  rewind : ∀ opcode fetched, m.fetch = .ok (opcode, fetched) → (fetched.pc - 2).toNat + 2 = fetched.pc.toNat

/-! ## The extreme values -/

theorem toNat_fetched_pc {m fetched : Machine} {opcode : UInt16} (h : m.fetch = .ok (opcode, fetched)) :
    fetched.pc.toNat = m.pc.toNat + 2 ∧ fetched.pc.toNat ≤ Memory.size := by
  obtain ⟨-, rfl, hin⟩ := Machine.fetch_eq_ok h
  rw [Machine.toNat_skip_pc (by omega)]
  exact ⟨rfl, hin⟩

theorem toNat_rewind {a : UInt16} (h : 2 ≤ a.toNat) : (a - 2).toNat + 2 = a.toNat := by
  have h2 : (2 : UInt16).toNat = 2 := rfl
  rw [UInt16.toNat_sub_of_le a 2 (UInt16.le_iff_toNat_le.2 h), h2]
  omega

theorem toNat_jumpOffset {opcode addr : UInt16} (h : Instruction.decode opcode = some (.jumpOffset addr)) (v : UInt8) :
    (addr + v.toUInt16).toNat = addr.toNat + v.toNat ∧ addr.toNat + v.toNat ≤ 0x10FE := by
  obtain rfl : addr = Opcode.addr opcode := Instruction.fieldsOf_decode h
  have ha := Opcode.addr_lt opcode
  have hv := v.toNat_lt
  rw [UInt16.toNat_add, UInt8.toNat_toUInt16]
  omega

/-- whatever the machine, no sum of a cycle wraps around: an instruction that was fetched lies in memory -/
theorem NoWrap.of_machine (m : Machine) : NoWrap m where
  fetch _ _ h := (toNat_fetched_pc h).1
  skip _ _ h := Machine.toNat_skip_pc (toNat_fetched_pc h).2
  jumpOffset _ fetched _ _ hd := (toNat_jumpOffset hd (fetched.getV 0)).1
  rewind _ _ h := toNat_rewind (by have := (toNat_fetched_pc h).1; omega)

/-! ## One instruction, one cycle, a run -/

/-- an instruction that was decoded keeps the bounds, on a machine that has just fetched -/
theorem Bounded.flow {m m' : Machine} {opcode : UInt16} {ins : Instruction} {fault : Option Fault}
    (hd : Instruction.decode opcode = some ins) (hlo : 2 ≤ m.pc.toNat) (hhi : m.pc.toNat ≤ Memory.size)
    (hlive : ∀ a ∈ m.stack.toList, 2 ≤ a.toNat ∧ a.toNat ≤ 0x1000) (hf : Flow m ins m' fault) : Bounded m' := by
  have hsize : Memory.size = 0x1000 := rfl
  cases hf with
  | falls pc stack =>
    refine ⟨?_, stack ▸ hlive⟩
    rw [pc]
    omega
  | skips _ pc stack =>
    refine ⟨?_, stack ▸ hlive⟩
    have hskip : (m.pc + 2).toNat = m.pc.toNat + 2 := Machine.toNat_skip_pc hhi
    rw [pc, hskip]
    omega
  | rewinds pc stack =>
    refine ⟨?_, stack ▸ hlive⟩
    have := toNat_rewind hlo
    rw [pc]
    omega
  | jumps pc stack =>
    refine ⟨?_, stack ▸ hlive⟩
    have := Opcode.addr_lt opcode
    rw [pc, show _ = Opcode.addr opcode from Instruction.fieldsOf_decode hd]
    omega
  | jumpsOffset pc stack =>
    refine ⟨?_, stack ▸ hlive⟩
    obtain ⟨hsum, hle⟩ := toNat_jumpOffset hd (m.getV 0)
    rw [pc, hsum]
    exact hle
  | calls pc stack =>
    refine ⟨?_, fun a ha => ?_⟩
    · have := Opcode.addr_lt opcode
      rw [pc, show _ = Opcode.addr opcode from Instruction.fieldsOf_decode hd]
      omega
    · rw [CallStack.toList_push stack, List.mem_cons] at ha
      rcases ha with rfl | ha
      · exact ⟨hlo, hhi⟩
      · exact hlive a ha
  | returns stack =>
    have hpop := CallStack.toList_pop stack
    refine ⟨?_, fun a ha => hlive a ?_⟩
    · have := (hlive m'.pc (by simp [hpop])).2
      omega
    · rw [hpop]
      exact List.mem_cons_of_mem m'.pc ha

variable {σ δ : Type} [Input σ]

theorem Bounded.cycle {s : Interpreter σ δ} (h : Bounded s.machine) : Bounded s.cycle.val.1.machine := by
  rcases cycle_cases s with ⟨f, hf, hc⟩ | ⟨opcode, hf, hd, hc⟩ | ⟨opcode, ins, hf, hd, hc⟩
  · rw [hc]
    exact h
  · rw [hc]
    refine ⟨?_, h.live⟩
    exact Nat.le_trans (toNat_fetched_pc hf).2 (by decide)
  · rw [hc]
    obtain ⟨hpc, hhi⟩ := toNat_fetched_pc hf
    exact .flow hd (by omega) hhi h.live (execute_flow ins s.machine.skip s.input)

theorem Bounded.trail {s : Interpreter σ δ} (h : Bounded s.machine) (world : Nat → Machine → σ → Machine × σ)
    (n : Nat) : Bounded (trail world s n).machine := by
  induction n with
  | zero => exact h
  | succ n ih => exact ⟨ih.cycle.pc_le, ih.cycle.live⟩

/-! ## From a new machine -/

omit [Input σ] in
/-- settings and a program change neither program counter nor stack of a new machine -/
theorem Bounded.load {timers : Timers} {random : Generator} {mon : Monitor} {input : σ} {display : δ} {config : Config}
    {source : Memory.Source} {s : Interpreter σ δ}
    (h : (create (.fresh timers random) mon input display config).val.load source = .ok s) : Bounded s.machine := by
  have hstart : ∀ m : Machine, m.pc = Memory.programStart → m.stack = .empty → Bounded m := by
    intro m hpc hstack
    exact ⟨by rw [hpc]; decide, by simp [hstack]⟩
  have hconf : (configure config (.fresh timers random)).val.pc = Memory.programStart ∧
      (configure config (.fresh timers random)).val.stack = .empty := by
    unfold configure
    cases config.seed <;> cases config.disableDelay <;> cases config.disableSound <;> exact ⟨rfl, rfl⟩
  unfold Interpreter.load at h
  cases hm : (create (.fresh timers random) mon input display config).val.machine.withMemory
      ((create (.fresh timers random) mon input display config).val.machine.memory.loadFrom source) with
  | error f =>
    rw [hm] at h
    cases h
  | ok m =>
    rw [hm] at h
    cases h
    obtain ⟨memory, -, rfl⟩ := Machine.withMemory_eq_ok hm
    exact hstart _ hconf.1 hconf.2

/-- **Address bounds.** Load any program into a new machine, under any settings, and run any number of cycles with any
input, the world acting on all but program counter and stack. Then the program counter is at most 0x10FE, at most
sixteen addresses are on the stack, each of them in [2, 0x1000], and no sum on the program counter wraps around. -/
theorem addresses_bounded {timers : Timers} {random : Generator} {mon : Monitor} {input : σ} {display : δ}
    {config : Config} {source : Memory.Source} {s : Interpreter σ δ}
    (hload : (create (.fresh timers random) mon input display config).val.load source = .ok s)
    (world : Nat → Machine → σ → Machine × σ) (n : Nat) :
    let m := (trail world s n).machine
    m.pc.toNat ≤ 0x10FE ∧ m.stack.depth ≤ 16 ∧ (∀ a ∈ m.stack.toList, 2 ≤ a.toNat ∧ a.toNat ≤ 0x1000) ∧ NoWrap m := by
  intro m
  have h : Bounded m := (Bounded.load hload).trail world n
  exact ⟨h.pc_le, m.stack.depth_le, h.live, .of_machine m⟩

/-- LD V0, FF and JP V0, FFF -/
def farJump : Memory.Source := ⟨[[0x60, 0xFF, 0xBF], [0xFF]], none⟩

/-- the bound on the program counter is reached -/
theorem farthest_jump :
    ∃ s : Interpreter HeldKeys FrameCounter,
      (create (.fresh .disabled (.ofSeed 0)) .fresh (.ofKeys [] []) .steady .default).val.load farJump = .ok s ∧
      (trail (fun _ m dev => (m, dev)) s 2).machine.pc.toNat = 0x10FE ∧
      NoWrap (trail (fun _ m dev => (m, dev)) s 2).machine := by
  let start := (create (.fresh .disabled (.ofSeed 0)) .fresh (HeldKeys.ofKeys [] []) FrameCounter.steady .default).val
  have hload : start.load farJump = .ok _ := load_of_image rfl (by decide)
  obtain ⟨-, -, -, hwrap⟩ := addresses_bounded hload (fun _ m dev => (m, dev)) 2
  exact ⟨_, hload, by decide +kernel, hwrap⟩

end Chip8
