/-
Where a machine is stuck. A fault that leaves the program counter where it was would come back for ever, so the main
loop pauses the machine. Only a fetch that fails does that, at the end of memory: what is fetched and faults, decoded or
not, falls through to the next instruction (`Flow`).

What is paused stays so. Commands about breakpoints and further pauses may come, the keypad may change and the screen
may still have to be shown, but until a resume or a step is drained the program is left alone (`Idle`).

Results:
- `fetch_fails_iff`: a fetch fails just where no whole word is left in memory;
- `step_fault_pc`: a step that faults stays where it is when its fetch failed, and else moves past the instruction;
- `idle_of_paused`, `performAll_paused`: a paused monitor that drains neither resume nor step;
- `stuck_iff_fetch_fails`: when the main loop pauses after a fault, and what follows.
-/
import Chip8.Proofs.Interpreter.SingleStep

namespace Chip8

/-- **Where a fetch fails.** Just where no whole word is left in memory. -/
theorem Machine.fetch_fails_iff (m : Machine) : (∃ f, m.fetch = .error f) ↔ 0xFFF ≤ m.pc := by
  have hend : (0xFFF : UInt16).toNat = 0xFFF := rfl
  have hrange := Memory.checkRange_eq_ok_iff m.pc 2
  unfold Memory.size at hrange
  rw [UInt16.le_iff_toNat_le, hend]
  cases hc : Memory.checkRange m.pc 2 with
  | error f =>
    have hfetch : m.fetch = .error f := by rw [fetch, Memory.readWord, hc]; rfl
    rw [hc] at hrange
    simp only [reduceCtorEq, false_iff] at hrange
    exact ⟨fun _ => by omega, fun _ => ⟨f, hfetch⟩⟩
  | ok u =>
    have hread : ∃ opcode, m.memory.readWord m.pc = .ok opcode := by rw [Memory.readWord, hc]; exact ⟨_, rfl⟩
    obtain ⟨opcode, hread⟩ := hread
    rw [hc] at hrange
    have hinside := hrange.1 rfl
    constructor
    · rintro ⟨f, hf⟩
      rw [fetch_of_readWord hread] at hf
      cases hf
    · intro hle
      omega

namespace Interpreter

variable {σ δ : Type} [Input σ]

/-! ## Where a fault leaves the program counter -/

/-- a cycle that faults stays where it is when its fetch failed, and else moves past the instruction -/
theorem cycle_fault_pc {s : Interpreter σ δ} {f : Fault} (h : s.cycle.val.2 = some f) :
    (s.machine.fetch = .error f ∧ s.cycle.val.1.machine.pc = s.machine.pc) ∨
      ∃ fetched, s.machine.fetch = .ok fetched ∧ s.cycle.val.1.machine.pc = s.machine.pc + 2 := by
  rcases cycle_cases s with ⟨f', hf, hc⟩ | ⟨opcode, hf, -, hc⟩ | ⟨opcode, ins, hf, -, hc⟩
  · rw [hc] at h ⊢
    cases h
    exact Or.inl ⟨hf, rfl⟩
  · rw [hc]
    exact Or.inr ⟨_, hf, rfl⟩
  · have hflow := execute_flow ins s.machine.skip s.input
    have hfault : (execute ins s.machine.skip s.input).val.fault = some f := by rw [hc] at h; exact h
    refine Or.inr ⟨_, hf, ?_⟩
    rw [hc]
    rw [hfault] at hflow
    -- of all ways to flow, only the fall through to the next instruction has room for a fault
    cases hflow with
    | falls pc _ => exact pc

/-- the same for a step, in which the monitor let the cycle run -/
theorem step_fault_pc {s : Interpreter σ δ} {f : Fault} (h : s.step.val.2 = .error f) :
    (s.machine.fetch = .error f ∧ s.step.val.1.machine.pc = s.machine.pc) ∨
      ∃ fetched, s.machine.fetch = .ok fetched ∧ s.step.val.1.machine.pc = s.machine.pc + 2 := by
  obtain ⟨hpermitted, hcycle⟩ := (step_error_iff s f).1 h
  rw [step_val_of_permitted hpermitted]
  exact cycle_fault_pc hcycle

/-! ## A paused machine -/

omit [Input σ] in
/-- a paused monitor that drains neither resume nor step is paused when it is asked -/
theorem drainedState_of_paused {s : Interpreter σ δ} (h : s.monitor.state = .paused)
    (hresume : .resume ∉ s.monitor.commands) (hstep : .step ∉ s.monitor.commands) : s.drainedState = .paused := by
  have hheld : s.drainedState ≠ .running := by
    rw [drainedState, Monitor.poll_state, Ne, Monitor.foldl_stateAfter_running_iff, not_not]
    exact Monitor.held_of_no_resume (by rw [h]; decide) hresume
  have hunarmed : s.drainedState ≠ .stepArmed := by
    rw [drainedState, Monitor.poll_state, Ne, Monitor.foldl_stateAfter_stepArmed_iff]
    exact fun hp => hstep (Monitor.mem_step_of_stepPending (by rw [h]; decide) hp)
  cases hs : s.drainedState with
  | running => exact absurd hs hheld
  | paused => rfl
  | stepArmed => exact absurd hs hunarmed

variable [Display δ]

/-- the next turn leaves the program alone: the monitor holds its step, which raises no fault, and of the machine only
the keypad and the wish to be shown can change -/
structure Idle (s : Interpreter σ δ) : Prop where
  held : s.pollInput.2 = .ok true → s.pollInput.1.step.val.2 = .ok false
  machine : ∃ keypad redraw, s.turn.val.1.machine = { s.machine with keypad := keypad, redraw := redraw }
  cycles : s.turn.val.1.cycles = s.cycles
  faults : s.turn.val.1.faults = s.faults
  lastFault : s.turn.val.1.lastFault = s.lastFault

theorem Idle.of_held {s : Interpreter σ δ} (h : s.pollInput.2 = .ok true → ¬ s.pollInput.1.Permitted) : s.Idle := by
  by_cases hpoll : s.pollInput.2 = .ok true
  · have hstep : s.pollInput.1.step.val.2 = .ok false := step_of_not_permitted (h hpoll)
    obtain ⟨redraw, display, shown, hval, -, -⟩ := turn_of_question hpoll
    rw [(guardedStep_of_ok hstep).1, step_val_of_not_permitted (h hpoll)] at hval
    exact ⟨fun _ => hstep, ⟨_, redraw, by rw [hval]; rfl⟩, by rw [hval]; rfl, by rw [hval]; rfl, by rw [hval]; rfl⟩
  · have hval := (turn_of_no_question hpoll).1
    exact ⟨fun e => absurd e hpoll, ⟨_, _, by rw [hval]; rfl⟩, by rw [hval]; rfl, by rw [hval]; rfl, by rw [hval]; rfl⟩

/-- **A paused machine.** Unless a resume or a step is drained, the next turn leaves the program alone. -/
theorem idle_of_paused {s : Interpreter σ δ} (h : s.monitor.state = .paused)
    (hnone : ∀ t ∈ s.question .turn, .resume ∉ t.monitor.commands ∧ .step ∉ t.monitor.commands) : s.Idle := by
  refine .of_held fun hpoll => ?_
  obtain ⟨hresume, hstep⟩ := hnone _ (question_turn_eq_some_iff.2 ⟨hpoll, rfl⟩)
  have hpaused : s.pollInput.1.drainedState = .paused := drainedState_of_paused h hresume hstep
  rw [permitted_iff_armed (by rw [hpaused]; decide), hpaused]
  decide

theorem perform_paused {s : Interpreter σ δ} {a : Action σ δ} (h : s.monitor.state = .paused)
    (hnone : ∀ t ∈ s.question a, .resume ∉ t.monitor.commands ∧ .step ∉ t.monitor.commands) :
    (s.perform a).val.monitor.state = .paused := by
  refine perform_state (P := (· = .paused)) rfl h fun t ht => ?_
  obtain ⟨hresume, hstep⟩ := hnone t ht
  have hdrained := drainedState_of_paused ((question_state ht).trans h) hresume hstep
  exact step_paused (by rw [hdrained]; decide)

/-- what is paused stays so until a resume or a step is drained -/
theorem performAll_paused {s : Interpreter σ δ} {as : List (Action σ δ)} (h : s.monitor.state = .paused)
    (hnone : ∀ t ∈ questions as s, .resume ∉ t.monitor.commands ∧ .step ∉ t.monitor.commands) :
    (performAll as s).val.monitor.state = .paused := by
  induction as generalizing s with
  | nil => exact h
  | cons a as ih =>
    rw [questions, List.forall_mem_append] at hnone
    exact ih (perform_paused h fun t ht => hnone.1 t (Option.mem_toList.2 ht)) hnone.2

/-! ## Stuck -/

/-- the run state after a turn with a recoverable fault: paused if the program counter did not move, and else as the
step left it -/
theorem turn_fault_state {s : Interpreter σ δ} {f : Fault} (hpoll : s.pollInput.2 = .ok true)
    (hstep : s.pollInput.1.step.val.2 = .error f) (hf : f.recoverable = true) :
    s.turn.val.1.monitor.state =
      if s.pollInput.1.step.val.1.machine.pc = s.pollInput.1.machine.pc then .paused
      else s.pollInput.1.step.val.1.monitor.state := by
  obtain ⟨redraw, display, shown, hval, -, -⟩ := turn_of_question hpoll
  rw [hval, guardedStep_of_error hstep, Noted.val_bind]
  simp only [takeFault_state, hf, true_and]

/-- **Stuck.** Take a turn whose step fails with a recoverable fault.
- The program counter is unchanged after the step just when the fetch failed, just where no whole word is left in
  memory; after a fetch that went well it is past the instruction.
- If it is unchanged, the monitor is paused at the end of the turn. From then on, whatever is done, a turn executes
  nothing, raises no fault and leaves the program counter until a resume or a step has been drained.
- If it has moved, the run state is as it was at the end of the cycle. -/
theorem stuck_iff_fetch_fails {s : Interpreter σ δ} {f : Fault} (hpoll : s.pollInput.2 = .ok true)
    (hstep : s.pollInput.1.step.val.2 = .error f) (hf : f.recoverable = true) :
    let asked := s.pollInput.1
    let pc := asked.machine.pc
    let pcAfter := asked.step.val.1.machine.pc
    let ended := s.turn.val.1
    (pcAfter = pc ↔ ∃ f', asked.machine.fetch = .error f') ∧
    ((∃ f', asked.machine.fetch = .error f') ↔ 0xFFF ≤ pc) ∧
    (∀ fetched, asked.machine.fetch = .ok fetched → pcAfter = pc + 2) ∧
    (pcAfter = pc → ended.monitor.state = .paused ∧
      ∀ as : List (Action σ δ), (∀ t ∈ questions (as ++ [.turn]) ended,
        .resume ∉ t.monitor.commands ∧ .step ∉ t.monitor.commands) → (performAll as ended).val.Idle) ∧
    (pcAfter ≠ pc → ended.monitor.state = (asked.monitor.permit pc).val.2.endCycle.state) := by
  intro asked pc pcAfter ended
  have hstate : ended.monitor.state = if pcAfter = pc then .paused else asked.step.val.1.monitor.state :=
    turn_fault_state hpoll hstep hf
  have hmoves : pc + 2 ≠ pc := by
    intro e
    have h2 : pc + 2 = pc + 0 := by rw [e, UInt16.add_zero]
    exact absurd ((UInt16.add_right_inj pc).1 h2) (by decide)
  have hpc : (pcAfter = pc ↔ ∃ f', asked.machine.fetch = .error f') ∧
      ∀ fetched, asked.machine.fetch = .ok fetched → pcAfter = pc + 2 := by
    rcases step_fault_pc hstep with ⟨hfetch, hstays⟩ | ⟨fetched, hfetch, hpast⟩
    · refine ⟨⟨fun _ => ⟨f, hfetch⟩, fun _ => hstays⟩, fun fetched hok => ?_⟩
      rw [hfetch] at hok
      cases hok
    · refine ⟨⟨fun e => absurd (hpast.symm.trans e) hmoves, ?_⟩, fun _ _ => hpast⟩
      rintro ⟨f', hf'⟩
      rw [hfetch] at hf'
      cases hf'
  refine ⟨hpc.1, Machine.fetch_fails_iff asked.machine, hpc.2, ?_, ?_⟩
  · intro hstuck
    have hpaused : ended.monitor.state = .paused := hstate.trans (if_pos hstuck)
    refine ⟨hpaused, fun as hnone => ?_⟩
    rw [questions_append, List.forall_mem_append] at hnone
    refine idle_of_paused (performAll_paused hpaused hnone.1) fun t ht => hnone.2 t ?_
    exact List.mem_append_left _ (Option.mem_toList.2 ht)
  · intro hmoved
    rw [hstate, if_neg hmoved, step_monitor]

/-- paused, with the program counter at the last byte of memory and a step to make -/
def lastByte : Interpreter HeldKeys FrameCounter :=
  (create (Machine.fresh .disabled (.ofSeed 0) |>.jump 0xFFF) (Monitor.fresh.sendAll [.pause, .step])
    (HeldKeys.ofKeys [] []) FrameCounter.steady .default).val

/-- a step that cannot fetch; another pause and a breakpoint come, and the machine is still held two turns later -/
theorem single_step_off_memory :
    lastByte.pollInput.2 = .ok true ∧ lastByte.pollInput.1.step.val.2 = .error (.outOfBounds 0x1000) ∧
      lastByte.turn.val.1.monitor.state = .paused ∧
      (performAll [.send .pause, .turn, .send (.setBreakpoint 0xFFF)] lastByte.turn.val.1).val.Idle := by
  have hpoll : lastByte.pollInput.2 = .ok true := by rfl
  have hstep : lastByte.pollInput.1.step.val.2 = .error (.outOfBounds 0x1000) := by rfl
  obtain ⟨hfetch, hend, -, hstuck, -⟩ := stuck_iff_fetch_fails hpoll hstep rfl
  obtain ⟨hpaused, hidle⟩ := hstuck (hfetch.2 (hend.2 (by decide)))
  exact ⟨hpoll, hstep, hpaused, hidle _ (by decide +kernel)⟩

end Interpreter

end Chip8
