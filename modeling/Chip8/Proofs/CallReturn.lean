/-
Calls and returns over runs. A call puts the address after it on the stack; whatever runs then - nested calls, calls on
a full stack, failing instructions, programs that rewrite themselves - the stack keeps this address and all below it
until the depth is back to what it was, and the cycle that brings it back is a return to this address.

The invariant between call and return is that the return address and the addresses below it are a suffix of the stack
(`suffix_cycle`). It breaks only as the depth comes back, and then in one way (`return_of_depth`).

Result:
- `call_returns`: the first time that the depth is back, the machine has just returned behind the call, with the stack
  from before the call.
-/
import Mathlib.Data.Nat.Init
import Chip8.Proofs.Flow

namespace Chip8.Interpreter

variable {σ δ : Type} [Input σ]

theorem toList_cycle_call {s : Interpreter σ δ} {opcode addr : UInt16}
    (hread : s.machine.memory.readWord s.machine.pc = .ok opcode)
    (hcall : Instruction.decode opcode = some (.call addr)) (hroom : s.machine.stack.depth < 16) :
    s.cycle.val.1.machine.stack.toList = (s.machine.pc + 2) :: s.machine.stack.toList := by
  have hf := Machine.fetch_of_readWord hread
  cases hp : s.machine.stack.push (s.machine.pc + 2) with
  | none =>
    have hfull := (CallStack.push_eq_none_iff s.machine.stack (s.machine.pc + 2)).1 hp
    rw [CallStack.length_toList] at hfull
    omega
  | some stack =>
    have hm : s.machine.skip.push s.machine.skip.pc = .ok { s.machine.skip with stack := stack } :=
      Machine.push_of_stack hp
    have hc : s.cycle.val.1.machine = (s.machine.skip.callTo addr).1 := by
      simp only [cycle, hf, hcall, Noted.val_bind, Noted.val_pure]
      rfl
    rw [hc, Machine.callTo, hm]
    exact CallStack.toList_push hp

/-- a cycle keeps the addresses at the bottom of the stack, unless it takes the depth below them -/
theorem suffix_cycle {s : Interpreter σ δ} {ret : UInt16} {old : List UInt16}
    (h : ret :: old <:+ s.machine.stack.toList) (hd : s.cycle.val.1.machine.stack.depth ≠ old.length) :
    ret :: old <:+ s.cycle.val.1.machine.stack.toList := by
  rcases cycle_stack_cases s with hsame | ⟨addr, hpush⟩ | ⟨-, -, -, -, hpop⟩
  · rw [hsame]
    exact h
  · rw [hpush]
    exact h.trans (List.suffix_cons addr _)
  · rw [hpop] at h
    rcases List.suffix_cons_iff.1 h with e | h
    · rw [← CallStack.length_toList, (List.cons.inj e).2] at hd
      exact absurd rfl hd
    · exact h

/-- a cycle that takes the depth below an address is a return to this address -/
theorem return_of_depth {s : Interpreter σ δ} {ret : UInt16} {old : List UInt16}
    (h : ret :: old <:+ s.machine.stack.toList) (hd : s.cycle.val.1.machine.stack.depth = old.length) :
    (∃ opcode, s.machine.fetch = .ok (opcode, s.machine.skip) ∧ Instruction.decode opcode = some .ret ∧
      s.cycle.val.2 = none) ∧
    s.cycle.val.1.machine.pc = ret ∧ s.cycle.val.1.machine.stack.toList = old := by
  rw [← CallStack.length_toList] at hd
  have hlen := h.length_le
  rw [List.length_cons] at hlen
  rcases cycle_stack_cases s with hsame | ⟨addr, hpush⟩ | ⟨opcode, hf, hdec, hfault, hpop⟩
  · rw [hsame] at hd
    omega
  · rw [hpush, List.length_cons] at hd
    omega
  · rw [hpop] at h
    rcases List.suffix_cons_iff.1 h with e | h
    · obtain ⟨e1, e2⟩ := List.cons.inj e
      exact ⟨⟨opcode, hf, hdec, hfault⟩, e1.symm, e2.symm⟩
    · have := h.length_le
      rw [List.length_cons] at this
      omega

/-- between call and return the address after the call and all below it stay on the stack -/
theorem suffix_trail {world : Nat → Machine → σ → Machine × σ} {s : Interpreter σ δ} {ret : UInt16} {old : List UInt16}
    {n : Nat} (h : (trail world s 1).machine.stack.toList = ret :: old)
    (hfirst : ∀ k, 0 < k → k ≤ n → (trail world s k).machine.stack.depth ≠ old.length) {k : Nat} (hk : 0 < k)
    (hkn : k ≤ n) : ret :: old <:+ (trail world s k).machine.stack.toList := by
  induction k, hk using Nat.le_induction with
  | base => exact ⟨[], h.symm⟩
  | succ k hk ih => exact suffix_cycle (ih (by omega)) (hfirst (k + 1) (by omega) hkn)

/-- **Calls return.** Let there be a call at the program counter, with room on the stack, and run cycles. The first time
after the call that the stack is as deep as before it, the cycle just run was a return without a fault, the program
counter is behind the call, and the stack holds the same addresses in the same order as before the call. -/
theorem call_returns (world : Nat → Machine → σ → Machine × σ) (s : Interpreter σ δ) {opcode addr : UInt16}
    (hread : s.machine.memory.readWord s.machine.pc = .ok opcode)
    (hcall : Instruction.decode opcode = some (.call addr)) (hroom : s.machine.stack.depth < 16) {n : Nat}
    (hback : (trail world s (n + 1)).machine.stack.depth = s.machine.stack.depth)
    (hfirst : ∀ k, 0 < k → k ≤ n → (trail world s k).machine.stack.depth ≠ s.machine.stack.depth) :
    (∃ op, (trail world s n).machine.fetch = .ok (op, (trail world s n).machine.skip) ∧
      Instruction.decode op = some .ret ∧ (trail world s n).cycle.val.2 = none) ∧
    (trail world s (n + 1)).machine.pc.toNat = s.machine.pc.toNat + 2 ∧
    (trail world s (n + 1)).machine.stack.toList = s.machine.stack.toList := by
  have hcalled : (trail world s 1).machine.stack.toList = (s.machine.pc + 2) :: s.machine.stack.toList :=
    toList_cycle_call hread hcall hroom
  have hlen := CallStack.length_toList s.machine.stack
  have hn : 0 < n := by
    -- right after the call the stack is one deeper
    rcases Nat.eq_zero_or_pos n with rfl | hn
    · have h1 := CallStack.length_toList (trail world s 1).machine.stack
      rw [hcalled, List.length_cons, hlen, hback] at h1
      omega
    · exact hn
  rw [← hlen] at hback hfirst
  obtain ⟨hret, hpc, hstack⟩ := return_of_depth (suffix_trail hcalled hfirst hn (Nat.le_refl n)) hback
  refine ⟨hret, ?_, hstack⟩
  rw [trail, disturb_pc, hpc]
  have hin := Memory.readWord_eq_ok hread
  exact Machine.toNat_skip_pc (by omega)

def nestedCalls : Interpreter HeldKeys FrameCounter where
  machine := { Machine.fresh .disabled (.ofSeed 0) with
    memory := ⟨Memory.place (Vector.replicate 4096 0) 0x200
      [0x22, 0x04, 0x00, 0x00, 0x01, 0x23, 0x22, 0x0A, 0x00, 0xEE, 0x00, 0xEE]⟩ }
  monitor := .fresh
  input := .ofKeys [] []
  display := .steady
  config := .default
  cycles := 0
  faults := 0
  lastFault := none

/-- five cycles, and only after the last one the stack is empty again: the machine is at 0x202 then -/
theorem call_returns_nested :
    let run := trail (fun _ m dev => (m, dev)) nestedCalls
    (run 5).machine.stack.depth = 0 ∧ (∀ k, 0 < k → k ≤ 4 → (run k).machine.stack.depth ≠ 0) ∧
      (run 5).machine.pc.toNat = 0x202 ∧ (run 5).machine.stack.toList = [] := by
  intro run
  have hread : nestedCalls.machine.memory.readWord nestedCalls.machine.pc = .ok 0x2204 := by
    show (Memory.checkRange 0x200 2).map _ = _
    rw [(Memory.checkRange_eq_ok_iff 0x200 2).2 (by decide)]
    exact congrArg Except.ok (by decide +kernel)
  have hcall : Instruction.decode 0x2204 = some (.call 0x204) := by decide
  have hback : (run 5).machine.stack.depth = 0 := by decide +kernel
  have hfirst : ∀ k, 0 < k → k ≤ 4 → (run k).machine.stack.depth ≠ 0 := by
    intro k h0 h4
    obtain rfl | rfl | rfl | rfl : k = 1 ∨ k = 2 ∨ k = 3 ∨ k = 4 := by omega
    all_goals decide +kernel
  obtain ⟨-, hpc, hstack⟩ := call_returns _ nestedCalls hread hcall (by decide) hback hfirst
  exact ⟨hback, hfirst, hpc, hstack⟩

end Chip8.Interpreter
