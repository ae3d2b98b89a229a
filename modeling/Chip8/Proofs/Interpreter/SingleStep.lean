/-
Single steps are accounted for. A step that a debugger asks for is armed as the queue is emptied, lets one cycle run,
and is over when that cycle is, whether the cycle went well or not. So a monitor is never found armed between two
actions, and while it stays active the cycles that run are the steps that were armed.

How many step commands a queue held does not matter, and neither does the machine: `permitted_iff_armed` speaks about
the monitor alone.

Results:
- `perform_state`: what can become of the run state in an action;
- `perform_ne_stepArmed`: no action leaves a step armed;
- `permitted_iff_armed`: an active monitor lets a cycle run just when a step is armed;
- `perform_active`: an active monitor stays active unless a resume takes effect;
- `single_steps_accounted`: cycles, armed steps and step commands over any stretch of a run.
-/
import Chip8.Proofs.Interpreter.History
import Chip8.Proofs.Monitor.PauseOrder

namespace Chip8

namespace Monitor

/-! ## Queues without a resume -/

theorem held_of_no_resume {s : RunState} {cmds : List Command} (hs : s ≠ .running) (hr : .resume ∉ cmds) :
    Held s cmds := by
  induction cmds using List.reverseRecOn with
  | nil => exact hs
  | append_singleton cmds cmd ih =>
    rw [List.mem_append, not_or, List.mem_singleton] at hr
    exact (held_concat s cmds cmd).2 (Or.inr ⟨Ne.symm hr.2, ih hr.1⟩)

/-- a step that is pending and was not before was asked for -/
theorem mem_step_of_stepPending {s : RunState} {cmds : List Command} (hs : s ≠ .stepArmed) (h : StepPending s cmds) :
    .step ∈ cmds := by
  rcases h with ⟨rfl, -⟩ | ⟨before, after, rfl, -, -⟩
  · exact absurd rfl hs
  · exact List.mem_append_right before List.mem_cons_self

/-- while the machine is held, any step command arms the step -/
theorem stepPending_of_mem_step {s : RunState} {cmds : List Command} (hs : s ≠ .running) (hr : .resume ∉ cmds)
    (h : .step ∈ cmds) : StepPending s cmds := by
  obtain ⟨before, after, rfl⟩ := List.append_of_mem h
  rw [List.mem_append, List.mem_cons, not_or, not_or] at hr
  exact Or.inr ⟨before, after, rfl, held_of_no_resume hs hr.1, hr.2.2⟩

/-- on an active monitor a resume always takes effect: where none does there was none, and the monitor stays active -/
theorem applyAll_active {m : Monitor} {pc : UInt16} {cmds : List Command} (h : m.state ≠ .running)
    (hnone : (applications pc cmds m).filterMap Happening.resumed? = []) :
    .resume ∉ cmds ∧ (applyAll pc cmds m).val.state ≠ .running := by
  induction cmds generalizing m with
  | nil => exact ⟨List.not_mem_nil, h⟩
  | cons cmd cmds ih =>
    rw [applications, List.filterMap_eq_nil_iff, List.forall_mem_cons, ← List.filterMap_eq_nil_iff] at hnone
    obtain ⟨hfirst, hrest⟩ := hnone
    have hcmd : cmd ≠ .resume := by
      rintro rfl
      simp [Happening.resumed?, apply, h] at hfirst
    have hactive : (m.apply pc cmd).val.state ≠ .running := fun e => hcmd (apply_starts h e)
    obtain ⟨hno, hend⟩ := ih hactive hrest
    exact ⟨fun hm => (List.mem_cons.1 hm).elim (fun e => hcmd e.symm) hno, hend⟩

end Monitor

namespace Interpreter

variable {σ δ : Type} [Input σ]

/-! ## One step -/

/-- the run state when the queue has been emptied for the question -/
def drainedState (s : Interpreter σ δ) : RunState :=
  (s.monitor.poll s.machine.pc).val.state

instance (s : Interpreter σ δ) : Decidable s.Permitted :=
  inferInstanceAs (Decidable (_ = true))

omit [Input σ] in
/-- **While active.** A cycle may run just when a step is armed. -/
theorem permitted_iff_armed {s : Interpreter σ δ} (h : s.drainedState ≠ .running) :
    s.Permitted ↔ s.drainedState = .stepArmed := by
  unfold Permitted drainedState at *
  rw [Monitor.permit_val]
  rcases Monitor.verdict_cases (s.monitor.poll s.machine.pc).val s.machine.pc with
    ⟨hs, hv⟩ | ⟨hs, hv⟩ | ⟨hs, hv⟩ | ⟨hs, hv⟩
  · exact absurd hs h
  · exact absurd hs h
  · simp [hv, hs]
  · simp [hv, hs]

/-- no step leaves a step armed, whatever came of its cycle -/
theorem step_ne_stepArmed (s : Interpreter σ δ) : s.step.val.1.monitor.state ≠ .stepArmed := by
  rw [step_monitor, Monitor.endCycle_state]
  split
  case isTrue => decide
  case isFalse h => exact h

/-- a step on an active monitor leaves it paused -/
theorem step_paused {s : Interpreter σ δ} (h : s.drainedState ≠ .running) : s.step.val.1.monitor.state = .paused := by
  unfold drainedState at h
  rw [step_monitor, Monitor.permit_val, Monitor.endCycle_state]
  rcases Monitor.verdict_cases (s.monitor.poll s.machine.pc).val s.machine.pc with
    ⟨hs, hv⟩ | ⟨hs, hv⟩ | ⟨hs, hv⟩ | ⟨hs, hv⟩
  · exact absurd hs h
  · exact absurd hs h
  · simp [hv, hs]
  · simp [hv, hs]

/-- taking the step's fault pauses the monitor or leaves its run state -/
theorem guardedStep_state (s : Interpreter σ δ) :
    s.guardedStep.val.1.monitor.state = .paused ∨
      s.guardedStep.val.1.monitor.state = s.step.val.1.monitor.state := by
  cases hstep : s.step.val.2 with
  | ok ran => exact Or.inr (by rw [(guardedStep_of_ok hstep).1])
  | error f =>
    rw [guardedStep_of_error hstep, Noted.val_bind, takeFault_state]
    split
    · exact Or.inl rfl
    · exact Or.inr rfl

/-! ## One action -/

variable [Display δ]

omit [Display δ] in
/-- a question finds the run state from before the action -/
theorem question_state {s t : Interpreter σ δ} {a : Action σ δ} (h : s.question a = some t) :
    t.monitor.state = s.monitor.state := by
  cases a with
  | step =>
    cases h
    rfl
  | turn =>
    obtain ⟨-, rfl⟩ := question_turn_eq_some_iff.1 h
    rfl
  | _ => cases h

/-- **The run state in an action.** What holds of a paused monitor, of the monitor before the action and after each step
in it, holds after the action. -/
theorem perform_state {P : RunState → Prop} {s : Interpreter σ δ} {a : Action σ δ} (hpaused : P .paused)
    (hbefore : P s.monitor.state) (hstep : ∀ t ∈ s.question a, P t.step.val.1.monitor.state) :
    P (s.perform a).val.monitor.state := by
  cases a with
  | step =>
    rw [perform, Noted.val_map]
    exact hstep s rfl
  | turn =>
    rw [perform, Noted.val_map]
    by_cases hpoll : s.pollInput.2 = .ok true
    · obtain ⟨redraw, display, shown, hval, -, -⟩ := turn_of_question hpoll
      have hasked := hstep s.pollInput.1 (question_turn_eq_some_iff.2 ⟨hpoll, rfl⟩)
      rw [hval]
      -- the halt of a stuck machine pauses; any other fault leaves the run state to the step
      rcases guardedStep_state s.pollInput.1 with hs | hs
      · simpa only [hs] using hpaused
      · simpa only [hs] using hasked
    · rw [(turn_of_no_question hpoll).1]
      exact hbefore
  | _ => exact hbefore

/-- **No action leaves a step armed.** -/
theorem perform_ne_stepArmed {s : Interpreter σ δ} (h : s.monitor.state ≠ .stepArmed) (a : Action σ δ) :
    (s.perform a).val.monitor.state ≠ .stepArmed :=
  perform_state (P := (· ≠ .stepArmed)) (by decide) h fun t _ => step_ne_stepArmed t

/-- **An active monitor stays active unless a resume takes effect.** -/
theorem perform_active {s : Interpreter σ δ} {a : Action σ δ} (h : s.monitor.state ≠ .running)
    (hnone : ∀ t ∈ s.question a, t.resumes = []) :
    (∀ t ∈ s.question a, .resume ∉ t.monitor.commands ∧ t.drainedState ≠ .running) ∧
      (s.perform a).val.monitor.state ≠ .running := by
  have hasked : ∀ t ∈ s.question a, .resume ∉ t.monitor.commands ∧ t.drainedState ≠ .running := by
    intro t ht
    have hactive : t.monitor.state ≠ .running := by rwa [question_state ht]
    exact Monitor.applyAll_active hactive (hnone t ht)
  refine ⟨hasked, perform_state (P := (· ≠ .running)) (by decide) h fun t ht => ?_⟩
  rw [step_paused (hasked t ht).2]
  decide

/-! ## Runs -/

theorem performAll_ne_stepArmed {s : Interpreter σ δ} (h : s.monitor.state ≠ .stepArmed) (as : List (Action σ δ)) :
    (performAll as s).val.monitor.state ≠ .stepArmed := by
  induction as generalizing s with
  | nil => exact h
  | cons a as ih => exact ih (perform_ne_stepArmed h a)

/-- no question of a run finds a step armed -/
theorem questions_ne_stepArmed {s : Interpreter σ δ} (h : s.monitor.state ≠ .stepArmed) (as : List (Action σ δ)) :
    ∀ t ∈ questions as s, t.monitor.state ≠ .stepArmed := by
  induction as generalizing s with
  | nil =>
    intro t ht
    cases ht
  | cons a as ih =>
    intro t ht
    rw [questions, List.mem_append, Option.mem_toList] at ht
    rcases ht with ht | ht
    · rwa [question_state ht]
    · exact ih (perform_ne_stepArmed h a) t ht

/-- over a stretch in which no resume takes effect, an active monitor is active at every question and at the end -/
theorem performAll_active {s : Interpreter σ δ} {as : List (Action σ δ)} (h : s.monitor.state ≠ .running)
    (hnone : resumesIn as s = []) :
    (∀ t ∈ questions as s, t.monitor.state ≠ .running ∧ .resume ∉ t.monitor.commands ∧ t.drainedState ≠ .running) ∧
      (performAll as s).val.monitor.state ≠ .running := by
  induction as generalizing s with
  | nil =>
    refine ⟨?_, h⟩
    intro t ht
    cases ht
  | cons a as ih =>
    rw [resumesIn, questions, List.flatMap_append, List.append_eq_nil_iff, List.flatMap_eq_nil_iff] at hnone
    obtain ⟨hfirst, hrest⟩ := hnone
    obtain ⟨hasked, hactive⟩ := perform_active (a := a) h (fun t ht => hfirst t (Option.mem_toList.2 ht))
    obtain ⟨hlater, hend⟩ := ih hactive hrest
    refine ⟨?_, hend⟩
    intro t ht
    rw [questions, List.mem_append, Option.mem_toList] at ht
    rcases ht with ht | ht
    · exact ⟨by rwa [question_state ht], hasked t ht⟩
    · exact hlater t ht

omit [Input σ] [Display δ] in
/-- a fresh monitor, set up as the settings say, is running -/
theorem create_state (m : Machine) (input : σ) (display : δ) (config : Config) :
    (create m .fresh input display config).val.monitor.state = .running := by
  obtain ⟨breakpoints, commands, hset⟩ := configureMonitor_frame config .fresh
  show (configureMonitor config .fresh).state = .running
  rw [hset]
  rfl

/-! ## Accounting -/

omit [Input σ] [Display δ] in
/-- questions before which a step was asked for are at most as many as the step commands -/
theorem countP_step_le (ts : List (Interpreter σ δ)) :
    ts.countP (fun t => .step ∈ t.monitor.commands) ≤ (ts.flatMap fun t => t.monitor.commands).count .step := by
  induction ts with
  | nil => exact Nat.le_refl 0
  | cons t ts ih =>
    rw [List.flatMap_cons, List.count_append, List.countP_cons]
    by_cases hstep : .step ∈ t.monitor.commands
    · have hone : 0 < t.monitor.commands.count .step := List.count_pos_iff.2 hstep
      simp only [hstep, decide_true, if_true]
      omega
    · simp only [hstep, decide_false, Bool.false_eq_true, if_false]
      omega

/-- **Single steps are accounted for.** Take any run from a fresh monitor and any stretch of actions after it.
- Neither then nor after any step of the run is a step left armed.
- If the monitor is active at every question of the stretch, the cycles that are let run are the questions at which a
  step was armed, and they are at most as many as the step commands carried out.
- It is active at every question, and at the end, if it is active at first and no resume takes effect; the cycles are
  then the questions before which any number of steps was asked for. -/
theorem single_steps_accounted (m : Machine) (input : σ) (display : δ) (config : Config)
    (before stretch : List (Action σ δ)) :
    let start := (create m .fresh input display config).val
    let s := (performAll before start).val
    let asked := questions stretch s
    let cycles := asked.countP fun t => t.Permitted
    (s.monitor.state ≠ .stepArmed ∧ ∀ t ∈ questions before start, t.step.val.1.monitor.state ≠ .stepArmed) ∧
    ((∀ t ∈ asked, t.drainedState ≠ .running) →
      cycles = asked.countP (fun t => t.drainedState = .stepArmed) ∧
      cycles ≤ (asked.flatMap fun t => t.monitor.commands).count .step) ∧
    (s.monitor.isActive = true → resumesIn stretch s = [] →
      (∀ t ∈ asked, t.drainedState ≠ .running) ∧ (performAll stretch s).val.monitor.isActive = true ∧
      cycles = asked.countP fun t => .step ∈ t.monitor.commands) := by
  intro start s asked cycles
  have hs : s.monitor.state ≠ .stepArmed := by
    refine performAll_ne_stepArmed ?_ before
    rw [create_state]
    decide
  have hunarmed : ∀ t ∈ asked, t.monitor.state ≠ .stepArmed := questions_ne_stepArmed hs stretch
  have harmed : (∀ t ∈ asked, t.drainedState ≠ .running) →
      cycles = asked.countP (fun t => t.drainedState = .stepArmed) := by
    intro hactive
    refine List.countP_congr fun t ht => ?_
    rw [decide_eq_true_iff, decide_eq_true_iff]
    exact permitted_iff_armed (hactive t ht)
  have hpending : ∀ t : Interpreter σ δ,
      t.drainedState = .stepArmed ↔ Monitor.StepPending t.monitor.state t.monitor.commands := by
    intro t
    rw [drainedState, Monitor.poll_state, Monitor.foldl_stateAfter_stepArmed_iff]
  refine ⟨⟨hs, fun t _ => step_ne_stepArmed t⟩, ?_, ?_⟩
  · intro hactive
    refine ⟨harmed hactive, Nat.le_trans (Nat.le_of_eq (harmed hactive)) (Nat.le_trans ?_ (countP_step_le asked))⟩
    refine List.countP_mono_left fun t ht h => ?_
    rw [decide_eq_true_iff] at h ⊢
    exact Monitor.mem_step_of_stepPending (hunarmed t ht) ((hpending t).1 h)
  · intro hactive hnone
    have hrunning : s.monitor.state ≠ .running := by simpa [Monitor.isActive] using hactive
    obtain ⟨hasked, hend⟩ := performAll_active hrunning hnone
    have hheld : ∀ t ∈ asked, t.drainedState ≠ .running := fun t ht => (hasked t ht).2.2
    refine ⟨hheld, by simpa [Monitor.isActive] using hend, (harmed hheld).trans ?_⟩
    refine List.countP_congr fun t ht => ?_
    obtain ⟨hstate, hresume, -⟩ := hasked t ht
    rw [decide_eq_true_iff, decide_eq_true_iff, hpending]
    exact ⟨Monitor.mem_step_of_stepPending (hunarmed t ht), Monitor.stepPending_of_mem_step hstate hresume⟩

/-- start paused -/
def pausedConfig : Config :=
  { Config.default with startPaused := true }

/-- two step commands in one queue and a bad opcode, then a third command on a breakpoint, then a turn without one -/
def steppedThrough : List (Action HeldKeys FrameCounter) :=
  [.send .step, .send .step, .turn, .send (.setBreakpoint 0x202), .send .step, .step, .turn]

/-- three step commands let two cycles run -/
theorem steps_in_one_queue_run_one_cycle :
    let start := (create (.fresh .disabled (.ofSeed 0)) .fresh (HeldKeys.ofKeys [] []) FrameCounter.steady
      pausedConfig).val
    let s := (performAll [.turn] start).val
    s.monitor.isActive = true ∧ resumesIn steppedThrough s = [] ∧
      ((questions steppedThrough s).flatMap fun t => t.monitor.commands).count .step = 3 ∧
      (questions steppedThrough s).countP (fun t => t.Permitted) = 2 := by
  intro start s
  have hactive : s.monitor.isActive = true := by decide +kernel
  have hnone : resumesIn steppedThrough s = [] := by decide +kernel
  have hthree : ((questions steppedThrough s).flatMap fun t => t.monitor.commands).count .step = 3 := by decide +kernel
  have hasked : (questions steppedThrough s).countP (fun t => .step ∈ t.monitor.commands) = 2 := by decide +kernel
  obtain ⟨-, -, hstretch⟩ := single_steps_accounted (.fresh .disabled (.ofSeed 0)) (HeldKeys.ofKeys [] [])
    FrameCounter.steady pausedConfig [.turn] steppedThrough
  obtain ⟨-, -, hcycles⟩ := hstretch hactive hnone
  exact ⟨hactive, hnone, hthree, hcycles.trans hasked⟩

end Interpreter

end Chip8
