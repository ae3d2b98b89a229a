/-
What a pause cannot stop. Of the commands in one queue a debugger expects the last one about running to win. A resume
does, and a pause does while the machine runs; but a pause that finds a single step armed is passed over, and the step
is still carried out.

A step is armed just when it was asked for while the machine was held and no resume came after it (`StepPending`), so
what a queue leads to can be read off the queue and the run state before it.

Results:
- `applyAll_state`: the run state after commands depends on the run state before them alone (`stateAfter`);
- `foldl_stateAfter_running_iff`, `foldl_stateAfter_stepArmed_iff`: which run state a queue leads to;
- `permit_after_pause`: when the last command about running is a pause, the machine is held, unless a step is pending;
- `pause_after_step_runs`: a pending step is carried out although the pause came after it.
-/
import Mathlib.Data.List.Induction
import Chip8.Proofs.Monitor.History

namespace Chip8

/-- is the command about running, not about breakpoints? -/
def Command.isRunControl : Command → Bool
  | .pause | .resume | .step => true
  | .setBreakpoint _ | .clearBreakpoint _ => false

namespace Monitor

/-! ## What a queue asks for -/

/-- the last command about running -/
def lastRunControl (cmds : List Command) : Option Command :=
  (cmds.filter Command.isRunControl).getLast?

/-- is the machine held after these commands? The last pause or resume decides; without one it is as before. -/
def Held (s : RunState) (cmds : List Command) : Prop :=
  match (cmds.filter fun cmd => cmd = .pause ∨ cmd = .resume).getLast? with
  | some cmd => cmd = .pause
  | none => s ≠ .running

/-- a step was asked for while the machine was held, and no resume came after it -/
def StepPending (s : RunState) (cmds : List Command) : Prop :=
  (s = .stepArmed ∧ .resume ∉ cmds) ∨
    ∃ before after, cmds = before ++ .step :: after ∧ Held s before ∧ .resume ∉ after

theorem held_concat (s : RunState) (cmds : List Command) (cmd : Command) :
    Held s (cmds ++ [cmd]) ↔ cmd = .pause ∨ cmd ≠ .resume ∧ Held s cmds := by
  cases cmd with
  | pause => simp [Held]
  | resume => simp [Held]
  | _ => simp [Held]

theorem stepPending_concat (s : RunState) (cmds : List Command) (cmd : Command) :
    StepPending s (cmds ++ [cmd]) ↔ cmd ≠ .resume ∧ (StepPending s cmds ∨ cmd = .step ∧ Held s cmds) := by
  constructor
  · rintro (⟨rfl, hr⟩ | ⟨before, after, e, hb, ha⟩)
    · exact ⟨by rintro rfl; simp at hr, .inl (.inl ⟨rfl, fun h => hr (by simp [h])⟩)⟩
    · rcases List.eq_nil_or_concat after with rfl | ⟨after, x, rfl⟩
      · obtain ⟨rfl, e2⟩ := List.append_inj' e rfl
        obtain rfl := (List.cons.inj e2).1
        exact ⟨by simp, .inr ⟨rfl, hb⟩⟩
      · rw [List.concat_eq_append] at e ha
        rw [← List.cons_append, ← List.append_assoc] at e
        obtain ⟨rfl, e2⟩ := List.append_inj' e rfl
        obtain rfl := (List.cons.inj e2).1
        exact ⟨by rintro rfl; simp at ha, .inl (.inr ⟨before, after, rfl, hb, fun h => ha (by simp [h])⟩)⟩
  · rintro ⟨hr, (⟨rfl, h⟩ | ⟨before, after, rfl, hb, ha⟩) | ⟨rfl, hb⟩⟩
    · exact .inl ⟨rfl, by simp [h, Ne.symm hr]⟩
    · exact .inr ⟨before, after ++ [cmd], by simp, hb, by simp [ha, Ne.symm hr]⟩
    · exact .inr ⟨cmds, [], rfl, hb, by simp⟩

/-! ## What a queue leads to -/

/-- the run state after a command -/
def stateAfter (s : RunState) : Command → RunState
  | .setBreakpoint _ | .clearBreakpoint _ => s
  | .pause => if s = .running then .paused else s
  | .resume => .running
  | .step => if s = .paused then .stepArmed else s

theorem apply_state (m : Monitor) (pc : UInt16) (cmd : Command) :
    (m.apply pc cmd).val.state = stateAfter m.state cmd := by
  cases cmd with
  | setBreakpoint addr => rfl
  | clearBreakpoint addr => rfl
  | pause =>
    simp only [apply, stateAfter]
    split
    · rw [pauseAt_val]
    · rfl
  | resume =>
    by_cases hs : m.state = .running
    · simp [apply, stateAfter, hs]
    · simp [apply, stateAfter, hs]
  | step => cases hs : m.state <;> simp [apply, stateAfter, hs]

theorem applyAll_state (pc : UInt16) (cmds : List Command) (m : Monitor) :
    (applyAll pc cmds m).val.state = cmds.foldl stateAfter m.state := by
  induction cmds generalizing m with
  | nil => rfl
  | cons cmd cmds ih =>
    rw [List.foldl_cons, ← apply_state]
    exact ih (m.apply pc cmd).val

theorem poll_state (m : Monitor) (pc : UInt16) : (m.poll pc).val.state = m.commands.foldl stateAfter m.state :=
  applyAll_state pc m.commands _

/-- a queue leaves the machine held just when its last pause or resume is a pause -/
theorem foldl_stateAfter_running_iff (s : RunState) (cmds : List Command) :
    cmds.foldl stateAfter s = .running ↔ ¬ Held s cmds := by
  induction cmds using List.reverseRecOn with
  | nil => simp [Held]
  | append_singleton cmds cmd ih =>
    rw [List.foldl_append, held_concat]
    simp only [List.foldl_cons, List.foldl_nil]
    cases cmd with
    | pause => simp only [stateAfter]; split <;> simp_all
    | resume => simp [stateAfter]
    | step => simp only [stateAfter]; split <;> simp_all
    | _ => simpa [stateAfter] using ih

/-- a queue leaves a step armed just when one is pending in it -/
theorem foldl_stateAfter_stepArmed_iff (s : RunState) (cmds : List Command) :
    cmds.foldl stateAfter s = .stepArmed ↔ StepPending s cmds := by
  induction cmds using List.reverseRecOn with
  | nil => simp [StepPending]
  | append_singleton cmds cmd ih =>
    have hheld := foldl_stateAfter_running_iff s cmds
    rw [List.foldl_append, stepPending_concat, ← ih]
    simp only [List.foldl_cons, List.foldl_nil]
    cases cmd with
    | pause => cases hs : cmds.foldl stateAfter s <;> simp [stateAfter]
    | resume => simp [stateAfter]
    | step => cases hs : cmds.foldl stateAfter s <;> simp_all [stateAfter]
    | _ => simp [stateAfter]

/-- a queue whose last command about running is a pause leaves the machine held -/
theorem held_of_lastRunControl (s : RunState) {cmds : List Command} (h : lastRunControl cmds = some .pause) :
    Held s cmds := by
  induction cmds using List.reverseRecOn with
  | nil => cases h
  | append_singleton cmds cmd ih =>
    rw [held_concat]
    cases cmd with
    | pause => exact .inl rfl
    | resume => simp [lastRunControl, Command.isRunControl] at h
    | step => simp [lastRunControl, Command.isRunControl] at h
    | _ =>
      refine .inr ⟨by simp, ih ?_⟩
      simpa [lastRunControl, Command.isRunControl] using h

/-! ## The verdict after a pause -/

/-- **What a pause stops.** Let the last command about running in the queue be a pause. Then the cycle may run just when
a step is pending, and it is that single step; otherwise the machine is paused. -/
theorem permit_after_pause (m : Monitor) (pc : UInt16) (h : lastRunControl m.commands = some .pause) :
    let d := (m.poll pc).val
    (StepPending m.state m.commands → d.state = .stepArmed ∧ (m.permit pc).val = (true, d)) ∧
    (¬ StepPending m.state m.commands → d.state = .paused ∧ (m.permit pc).val = (false, d)) := by
  intro d
  have harmed : d.state = .stepArmed ↔ StepPending m.state m.commands := by
    rw [poll_state, foldl_stateAfter_stepArmed_iff]
  have hheld : d.state ≠ .running := by
    rw [poll_state, Ne, foldl_stateAfter_running_iff, not_not]
    exact held_of_lastRunControl m.state h
  rw [← harmed, permit_val]
  change (_ → _ ∧ (d.verdict pc).val = (true, d)) ∧ (_ → _ ∧ (d.verdict pc).val = (false, d))
  cases hs : d.state with
  | running => exact absurd hs hheld
  | paused => simp [verdict, hs]
  | stepArmed => simp [verdict, hs]

/-- armed for a step, then resumed: the step that follows is passed over while running, and the pause wins -/
theorem pause_after_ignored_step :
    let m : Monitor := { fresh with state := .stepArmed, commands := [.resume, .step, .pause, .clearBreakpoint 0x300] }
    lastRunControl m.commands = some .pause ∧ (m.poll 0x200).val.state = .paused ∧
      (m.permit 0x200).val.1 = false := by
  intro m
  have hp : ¬ StepPending m.state m.commands := by
    rw [← foldl_stateAfter_stepArmed_iff]
    decide
  obtain ⟨-, hheld⟩ := permit_after_pause m 0x200 (by decide)
  exact ⟨by decide, (hheld hp).1, by rw [(hheld hp).2]⟩

/-- **A pause does not stop a pending step.** A paused monitor is sent a step and then a pause; the cycle runs. -/
theorem pause_after_step_runs :
    let m := (performAll [.send .pause, .permit 0x200, .send .step, .send .pause] fresh).val
    lastRunControl m.commands = some .pause ∧ (m.poll 0x200).val.state = .stepArmed ∧
      (m.permit 0x200).val.1 = true := by
  decide

end Monitor

end Chip8
