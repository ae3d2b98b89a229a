/-
A turn in three parts: the step, the fault that the subscriber is told of, and what follows, which is the halt of a
machine that is stuck. The first and the last part are stories of the monitor, and the second one says a single thing,
so that what a turn reports can be read off the parts.

Results:
- `report_tells`: a fault is kept in any case, and told when it is not the one before it;
- `guardedStep_parts`, `turn_parts`: the three parts;
- `turn_chained`: what holds of the parts holds of a turn;
- `guardedStep_counts`: how a turn counts and keeps its fault.
-/
import Chip8.Proofs.Interpreter.SingleStep
import Chip8.Proofs.Monitor.Mirror

namespace Chip8.Interpreter

variable {σ δ : Type}

/-! ## Telling of a fault -/

/-- what is kept of a fault -/
def kept (p : UInt16 × Fault) : UInt16 × String :=
  (p.1, p.2.message)

/-- **Reports.** The fault is kept in any case, and told when it is not the one before it. -/
theorem report_tells (s : Interpreter σ δ) (pc : UInt16) (f : Fault) :
    let told := s.monitor.tell (if s.isRepeat pc f then none else some (pc, f))
    (s.report pc f).val = { s with monitor := told.val, lastFault := some (kept (pc, f)) } ∧
      (s.report pc f).notes = told.notes := by
  cases h : s.isRepeat pc f with
  | true =>
    have hlast : s.lastFault = some (kept (pc, f)) := of_decide_eq_true h
    rw [report_of_repeat h, ← hlast]
    exact ⟨rfl, rfl⟩
  | false =>
    rw [(report_of_new h).1, (report_of_new h).2]
    refine ⟨?_, rfl⟩
    simp only [Bool.false_eq_true, if_false, Monitor.tell, Noted.val_bind, Monitor.reportFault, Monitor.publish_val,
      kept]

variable [Input σ]

/-! ## The parts of a step with its fault taken -/

/-- a step keeps the settings, the display, and the faults so far -/
theorem step_frame (s : Interpreter σ δ) : ∃ machine monitor input cycles,
    s.step.val.1 = { s with machine := machine, monitor := monitor, input := input, cycles := cycles } := by
  by_cases h : s.Permitted
  · obtain ⟨machine, input, cycles, hc⟩ := cycle_frame s.asked
    exact ⟨machine, _, input, cycles, by rw [step_val_of_permitted h, hc]; rfl⟩
  · exact ⟨s.machine, _, s.input, s.cycles, step_val_of_not_permitted h⟩

theorem step_story (s : Interpreter σ δ) : s.monitor.Story s.step.notes s.step.val.1.monitor := by
  obtain ⟨ran, hnotes, hran⟩ := step_notes s
  have hend := Monitor.endCycle_story (s.monitor.permit s.machine.pc).val.2
  rw [hnotes, step_monitor, ← List.append_nil ran]
  exact (Monitor.permit_story s.monitor s.machine.pc).append (.append (.quiet hran rfl rfl) hend)

/-- the recoverable fault that the step comes to, with its address -/
def stepFault (s : Interpreter σ δ) : Option (UInt16 × Fault) :=
  match s.step.val.2 with
  | .ok _ => none
  | .error f => if f.recoverable then some (s.machine.pc, f) else none

/-- that fault, if it is not the one before it -/
def newFault (s : Interpreter σ δ) : Option (UInt16 × Fault) :=
  s.stepFault.filter fun p => !s.isRepeat p.1 p.2

/-- where the halt after the step publishes a pause, if it does -/
def haltPause (s : Interpreter σ δ) : Option UInt16 :=
  if s.stepFault.isSome ∧ s.step.val.1.machine.pc = s.machine.pc ∧ s.step.val.1.monitor.state ≠ .paused then
    some s.machine.pc
  else none

/-- the monitor after the step, telling of a new fault -/
def told (s : Interpreter σ δ) : Noted Monitor :=
  s.step.val.1.monitor.tell s.newFault

/-- what follows until the monitor is `m`: a halt if the machine is stuck, and what is not reported -/
structure Aftermath (s : Interpreter σ δ) (notes : List Note) (m : Monitor) : Prop where
  story : s.told.val.Story notes m
  pauses : Note.pauses notes = s.haltPause.toList
  resumes : Note.resumes notes = []

theorem Aftermath.of_silent {s : Interpreter σ δ} {notes : List Note} (hsilent : Note.Silent notes)
    (hpause : s.haltPause = none) : s.Aftermath notes s.told.val :=
  ⟨.quiet hsilent rfl rfl, by rw [hpause, Note.pauses_of_silent hsilent]; rfl, Note.resumes_of_silent hsilent⟩

theorem Aftermath.append_silent {s : Interpreter σ δ} {notes shown : List Note} {m : Monitor}
    (h : s.Aftermath notes m) (hshown : Note.Silent shown) : s.Aftermath (notes ++ shown) m where
  story := h.story.append (.quiet hshown rfl rfl)
  pauses := by rw [Note.pauses_append, h.pauses, Note.pauses_of_silent hshown, List.append_nil]
  resumes := by rw [Note.resumes_append, h.resumes, Note.resumes_of_silent hshown]; rfl

theorem stepFault_eq_none_of_ok {s : Interpreter σ δ} {ran : Bool} (h : s.step.val.2 = .ok ran) :
    s.stepFault = none := by
  rw [stepFault, h]

theorem stepFault_of_error {s : Interpreter σ δ} {f : Fault} (h : s.step.val.2 = .error f) :
    s.stepFault = if f.recoverable then some (s.machine.pc, f) else none := by
  rw [stepFault, h]

theorem newFault_of_stepFault {s : Interpreter σ δ} {pc : UInt16} {f : Fault} (h : s.stepFault = some (pc, f)) :
    s.newFault = if s.isRepeat pc f then none else some (pc, f) := by
  rw [newFault, h, Option.filter_some]
  cases s.isRepeat pc f <;> rfl

theorem told_of_no_fault {s : Interpreter σ δ} (h : s.stepFault = none) :
    s.told = pure s.step.val.1.monitor ∧ s.haltPause = none := by
  refine ⟨?_, ?_⟩
  · rw [told, newFault, h]
    rfl
  · rw [haltPause, h]
    exact if_neg (by simp)

/-- a recoverable fault is counted, kept and told, and a stuck machine is halted -/
theorem guardedStep_of_stepFault {s : Interpreter σ δ} {f : Fault} (hstep : s.step.val.2 = .error f)
    (hf : f.recoverable = true) :
    let t := s.step.val.1
    let stuck := t.machine.pc = s.machine.pc
    s.guardedStep.val.1 = { t with
      monitor := if stuck then (s.told.val.halt s.machine.pc).val else s.told.val
      faults := t.faults + 1
      lastFault := some (kept (s.machine.pc, f)) } ∧
    s.guardedStep.notes = s.step.notes ++ (s.told.notes ++
      if stuck then .stuck s.machine.pc :: (s.told.val.halt s.machine.pc).notes else []) := by
  intro t stuck
  have hfault : s.stepFault = some (s.machine.pc, f) := (stepFault_of_error hstep).trans (if_pos hf)
  obtain ⟨machine, monitor, input, cycles, hframe⟩ := step_frame s
  -- neither the step nor the count touches the fault that is kept
  have hrepeat : { t with faults := t.faults + 1 }.isRepeat s.machine.pc f = s.isRepeat s.machine.pc f := by
    simp only [isRepeat, t, hframe]
  obtain ⟨hval, hnotes⟩ := report_tells { t with faults := t.faults + 1 } s.machine.pc f
  obtain ⟨htaken, htold⟩ := @takeFault_of_recoverable _ _ t s.machine.pc f hf
  rw [hrepeat, ← newFault_of_stepFault hfault] at hval hnotes
  rw [hval, hnotes] at htold
  rw [hval] at htaken
  rw [guardedStep_of_error hstep, Noted.val_bind, Noted.notes_bind, htaken, htold]
  refine ⟨?_, rfl⟩
  by_cases hs : t.machine.pc = s.machine.pc
  · rw [if_pos hs, if_pos hs]
    rfl
  · rw [if_neg hs, if_neg hs]
    rfl

/-- **The three parts.** The step, what is told of its fault, and what follows. -/
theorem guardedStep_parts (s : Interpreter σ δ) : ∃ after,
    s.guardedStep.notes = s.step.notes ++ (s.told.notes ++ after) ∧ s.Aftermath after s.guardedStep.val.1.monitor := by
  cases hstep : s.step.val.2 with
  | ok ran =>
    obtain ⟨htold, hpause⟩ := told_of_no_fault (stepFault_eq_none_of_ok hstep)
    have hafter := Aftermath.of_silent Note.silent_nil hpause
    rw [(guardedStep_of_ok hstep).1, (guardedStep_of_ok hstep).2]
    rw [htold] at hafter ⊢
    exact ⟨[], by simp, hafter⟩
  | error f =>
    cases hf : f.recoverable with
    | false =>
      obtain ⟨htold, hpause⟩ := told_of_no_fault ((stepFault_of_error hstep).trans (if_neg (by simp [hf])))
      have hafter := Aftermath.of_silent (Note.silent_singleton (n := .fatal s.machine.pc f) rfl) hpause
      rw [guardedStep_of_error hstep, Noted.val_bind, Noted.notes_bind, (takeFault_of_fatal hf).1,
        (takeFault_of_fatal hf).2]
      rw [htold] at hafter ⊢
      exact ⟨_, by simp, hafter⟩
    | true =>
      obtain ⟨hval, hnotes⟩ := guardedStep_of_stepFault hstep hf
      have hfault : s.stepFault = some (s.machine.pc, f) := (stepFault_of_error hstep).trans (if_pos hf)
      have htold : s.told.val.state = s.step.val.1.monitor.state := Monitor.tell_state _ _
      refine ⟨_, hnotes, ?_⟩
      rw [hval]
      by_cases hs : s.step.val.1.machine.pc = s.machine.pc
      · rw [if_pos hs, if_pos hs]
        -- the step is over, so the halt finds none armed
        have hhalt := Monitor.halt_story (htold ▸ step_ne_stepArmed s) s.machine.pc
        have hstuck : Note.Silent [.stuck s.machine.pc] := Note.silent_singleton rfl
        refine ⟨.append (.quiet hstuck rfl rfl) hhalt, ?_, Monitor.resumes_halt _ _⟩
        rw [← List.singleton_append, Note.pauses_append, Note.pauses_of_silent hstuck, Monitor.pauses_halt, htold,
          haltPause, hfault]
        by_cases hpaused : s.step.val.1.monitor.state = .paused
        · simp [hpaused]
        · simp [hpaused, hs]
      · rw [if_neg hs, if_neg hs]
        exact .of_silent Note.silent_nil (if_neg fun h => hs h.2.1)

/-- how a step with its fault taken counts and keeps the fault -/
theorem guardedStep_counts (s : Interpreter σ δ) :
    s.guardedStep.val.1.faults = s.faults + s.stepFault.toList.length ∧
      s.guardedStep.val.1.lastFault = (s.stepFault.map kept).or s.lastFault := by
  obtain ⟨machine, monitor, input, cycles, hframe⟩ := step_frame s
  cases hstep : s.step.val.2 with
  | ok ran =>
    rw [(guardedStep_of_ok hstep).1, stepFault_eq_none_of_ok hstep, hframe]
    exact ⟨rfl, rfl⟩
  | error f =>
    rw [stepFault_of_error hstep]
    cases hf : f.recoverable with
    | false =>
      rw [guardedStep_of_error hstep, Noted.val_bind, (takeFault_of_fatal hf).1, hframe]
      exact ⟨rfl, rfl⟩
    | true =>
      rw [(guardedStep_of_stepFault hstep hf).1, hframe]
      exact ⟨rfl, rfl⟩

/-! ## The parts of a turn -/

variable [Display δ]

theorem turn_parts {s : Interpreter σ δ} (h : s.pollInput.2 = .ok true) : ∃ after,
    s.turn.notes = s.pollInput.1.step.notes ++ (s.pollInput.1.told.notes ++ after) ∧
      s.pollInput.1.Aftermath after s.turn.val.1.monitor := by
  obtain ⟨redraw, display, shown, hval, hnotes, hshown⟩ := turn_of_question h
  obtain ⟨after, hguarded, hafter⟩ := guardedStep_parts s.pollInput.1
  refine ⟨after ++ shown, ?_, ?_⟩
  · rw [hnotes, hguarded, List.append_assoc, List.append_assoc]
  · rw [hval]
    exact hafter.append_silent hshown

/-- **Turns.** What holds of stories and of faults told, and carries over from one to the next, holds of a turn. -/
theorem turn_chained {R : Monitor → Monitor → List Note → Prop} (h : Monitor.Chained R) (s : Interpreter σ δ) :
    R s.monitor s.turn.val.1.monitor s.turn.notes := by
  by_cases hpoll : s.pollInput.2 = .ok true
  · obtain ⟨after, hnotes, hafter⟩ := turn_parts hpoll
    have hpolled : s.monitor.Story [] s.pollInput.1.monitor := .quiet Note.silent_nil rfl rfl
    rw [hnotes]
    exact h.append (h.story (hpolled.append (step_story _))) (h.append (h.tell _ _) (h.story hafter.story))
  · obtain ⟨hval, hnotes⟩ := turn_of_no_question hpoll
    rw [hval]
    exact h.story (.quiet hnotes rfl rfl)

end Chip8.Interpreter
