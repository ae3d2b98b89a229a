/-
An interpreter over time. An `Action` is one thing done to an interpreter or around it: the debugger sends a command, a
step or a turn of the main loop is made, a subscriber comes, reads or goes, or the world acts on the machine and the
devices. `performAll` carries actions out in order, and `questions` are the interpreters at the moments when their
monitor was asked whether a cycle may run.

Commands, ticks and embedders do not wait for a turn to be over, but nothing is lost by letting them act between two
actions: a command only queues until the next question, and a device that is polled can send commands of its own.

Results:
- `configureMonitor_frame`: a monitor is set up with breakpoints and a queue of commands;
- `step_monitor`: a step leaves the monitor as the question did, with a single step over;
- `turn_of_question`, `turn_of_no_question`: a turn is a step with its fault taken, and what follows is silent;
- `cycle_silent`: a cycle reports neither pause, resume nor fault;
- `turns_eq_performAll`: the turns of a main loop are actions in a row.
-/
import Chip8.Proofs.Survival
import Chip8.Proofs.Monitor.History

namespace Chip8

/-! ## Timers report nothing -/

namespace Countdown

theorem cancel_silent (t : Countdown) : Note.Silent t.cancel.notes := by
  unfold cancel
  cases t.task with
  | none => exact Note.silent_nil
  | some task => exact Note.silent_singleton rfl

theorem switchTone_silent (t : Countdown) (on : Bool) : Note.Silent (t.switchTone on).notes := by
  unfold switchTone
  cases t.speaker with
  | none => exact Note.silent_nil
  | some speaker =>
    have hspeaker : Note.Silent (speaker.switch on).notes := by
      cases speaker with
      | mute => exact Note.silent_nil
      | beeper b =>
        intro n hn
        obtain ⟨hertz, -, rfl⟩ := List.mem_map.1 hn
        rfl
      | recorder answers later =>
        cases answers with
        | nil => exact Note.silent_singleton rfl
        | cons answer answers => exact Note.silent_singleton rfl
    simpa only [Noted.notes_bind, Noted.notes_pure, List.append_nil] using hspeaker

theorem toneOff_silent (t : Countdown) : Note.Silent t.toneOff.notes := by
  simp only [toneOff, Noted.notes_bind]
  refine (switchTone_silent t false).append ?_
  cases (t.switchTone false).val.2 with
  | none => exact Note.silent_nil
  | some why => exact Note.silent_singleton rfl

theorem set_silent (t : Countdown) (value : UInt8) : Note.Silent (t.set value).notes := by
  simp only [set, Noted.notes_bind]
  refine (cancel_silent t).append ?_
  by_cases hd : t.cancel.val.disabled = true
  · rw [if_pos hd]
    exact Note.silent_nil
  · rw [if_neg hd]
    split
    · exact toneOff_silent _
    · exact Note.silent_singleton rfl

end Countdown

namespace Interpreter

/-! ## Setting up -/

/-- the settings bear on a monitor's breakpoints and its queue alone -/
theorem configureMonitor_frame (config : Config) (mon : Monitor) : ∃ breakpoints commands,
    configureMonitor config mon = { mon with breakpoints := breakpoints, commands := commands } := by
  have hbreak : ∀ (addrs : List UInt16) (mon : Monitor),
      ∃ breakpoints, addrs.foldl Monitor.setBreakpoint mon = { mon with breakpoints := breakpoints } := by
    intro addrs
    induction addrs with
    | nil => exact fun mon => ⟨mon.breakpoints, rfl⟩
    | cons addr addrs ih =>
      intro mon
      obtain ⟨breakpoints, h⟩ := ih (mon.setBreakpoint addr)
      exact ⟨breakpoints, h⟩
  obtain ⟨breakpoints, h⟩ := hbreak config.breakpoints mon
  simp only [configureMonitor, h]
  split
  · exact ⟨breakpoints, _, rfl⟩
  · exact ⟨breakpoints, mon.commands, rfl⟩

variable {σ δ : Type}

/-! ## Taking a fault -/

theorem report_of_repeat {s : Interpreter σ δ} {pc : UInt16} {f : Fault} (h : s.isRepeat pc f = true) :
    s.report pc f = pure s :=
  if_pos h

/-- a fault that is not the one before it is noted, published and kept -/
theorem report_of_new {s : Interpreter σ δ} {pc : UInt16} {f : Fault} (h : s.isRepeat pc f = false) :
    (s.report pc f).val = { s with
      monitor := { s.monitor with events := s.monitor.heard (.fault pc f) }
      lastFault := some (pc, f.message) } ∧
    (s.report pc f).notes = .fault pc f :: (s.monitor.publish (.fault pc f)).notes := by
  rw [report, if_neg (by rw [h]; decide)]
  refine ⟨?_, ?_⟩
  · simp only [Noted.val_bind, Monitor.reportFault, Monitor.publish_val, Noted.val_pure]
  · simp only [Noted.notes_bind, Monitor.reportFault, Noted.notes_note, Noted.notes_pure, List.append_nil]
    rfl

theorem report_state (s : Interpreter σ δ) (pc : UInt16) (f : Fault) :
    (s.report pc f).val.monitor.state = s.monitor.state := by
  cases h : s.isRepeat pc f with
  | true => rw [report_of_repeat h, Noted.val_pure]
  | false => rw [(report_of_new h).1]

theorem takeFault_of_fatal {s : Interpreter σ δ} {pc : UInt16} {f : Fault} (h : f.recoverable = false) :
    (s.takeFault pc f).val.1 = s ∧ (s.takeFault pc f).notes = [.fatal pc f] := by
  unfold takeFault
  rw [h]
  exact ⟨rfl, rfl⟩

/-- a recoverable fault is counted and reported; when the program counter did not move, the monitor is halted too -/
theorem takeFault_of_recoverable {s : Interpreter σ δ} {pc : UInt16} {f : Fault} (h : f.recoverable = true) :
    let r := { s with faults := s.faults + 1 }.report pc f
    (s.takeFault pc f).val.1 =
      (if s.machine.pc = pc then { r.val with monitor := (r.val.monitor.halt pc).val } else r.val) ∧
    (s.takeFault pc f).notes =
      r.notes ++ (if s.machine.pc = pc then .stuck pc :: (r.val.monitor.halt pc).notes else []) := by
  intro r
  have hpc : r.val.machine.pc = s.machine.pc := by
    obtain ⟨mon, last, hr⟩ := report_frame { s with faults := s.faults + 1 } pc f
    exact congrArg (fun t => t.machine.pc) hr
  unfold takeFault
  rw [if_pos h]
  simp only [Noted.val_bind, Noted.notes_bind]
  by_cases hstuck : s.machine.pc = pc
  · rw [if_pos hstuck, if_pos hstuck, if_pos (hpc.trans hstuck)]
    exact ⟨rfl, by simp [r]⟩
  · rw [if_neg hstuck, if_neg hstuck, if_neg (fun e => hstuck (hpc.symm.trans e))]
    exact ⟨rfl, by simp [r]⟩

/-- taking a fault pauses the monitor when the program counter did not move, and else leaves its run state -/
theorem takeFault_state (s : Interpreter σ δ) (pc : UInt16) (f : Fault) :
    (s.takeFault pc f).val.1.monitor.state =
      if f.recoverable = true ∧ s.machine.pc = pc then .paused else s.monitor.state := by
  cases h : f.recoverable with
  | false => rw [(takeFault_of_fatal h).1, if_neg (by simp)]
  | true =>
    rw [(takeFault_of_recoverable h).1]
    by_cases hstuck : s.machine.pc = pc
    · rw [if_pos hstuck, if_pos ⟨rfl, hstuck⟩, Monitor.halt_state]
    · rw [if_neg hstuck, if_neg (fun e => hstuck e.2), report_state]

variable [Input σ]

/-! ## One step -/

/-- an instruction makes notes of timers and tones at most -/
theorem execute_silent (ins : Instruction) (m : Machine) (dev : σ) : Note.Silent (execute ins m dev).notes := by
  cases ins with
  | setDelay x => simpa [execute, Machine.setDelay] using Countdown.set_silent _ _
  | setSound x => simpa [execute, Machine.setSound] using Countdown.set_silent _ _
  | _ => exact Note.silent_nil

theorem cycle_silent (s : Interpreter σ δ) : Note.Silent s.cycle.notes := by
  unfold cycle
  split
  · exact Note.silent_nil
  · split
    · exact Note.silent_nil
    · exact (Note.silent_singleton rfl).append ((execute_silent _ _ _).append Note.silent_nil)

/-- a cycle touches the machine, the input device and the count of cycles -/
theorem cycle_frame (s : Interpreter σ δ) :
    ∃ machine input cycles, s.cycle.val.1 = { s with machine := machine, input := input, cycles := cycles } := by
  rcases cycle_cases s with ⟨f, -, hc⟩ | ⟨opcode, -, -, hc⟩ | ⟨opcode, ins, -, -, hc⟩
  · exact ⟨s.machine, s.input, s.cycles, by rw [hc]⟩
  · exact ⟨_, s.input, _, by rw [hc]⟩
  · exact ⟨_, _, _, by rw [hc]⟩

theorem step_val_of_permitted {s : Interpreter σ δ} (h : s.Permitted) :
    s.step.val.1 = { s.asked.cycle.val.1 with monitor := s.asked.cycle.val.1.monitor.endCycle } := by
  unfold Permitted at h
  unfold step
  simp only [Noted.val_bind, h, if_true]
  split <;> rfl

theorem step_val_of_not_permitted {s : Interpreter σ δ} (h : ¬ s.Permitted) : s.step.val.1 = s.asked := by
  unfold Permitted at h
  unfold step
  simp only [Noted.val_bind, h]
  rfl

/-- after a step the monitor is as the question left it, with a single step over -/
theorem step_monitor (s : Interpreter σ δ) :
    s.step.val.1.monitor = (s.monitor.permit s.machine.pc).val.2.endCycle := by
  by_cases h : s.Permitted
  · obtain ⟨machine, input, cycles, hc⟩ := cycle_frame s.asked
    rw [step_val_of_permitted h, hc]
    rfl
  · have hheld : (s.monitor.permit s.machine.pc).val.2.state = .paused := by
      unfold Permitted at h
      rw [Monitor.permit_val] at h ⊢
      rcases Monitor.verdict_cases (s.monitor.poll s.machine.pc).val s.machine.pc with
        ⟨-, hv⟩ | ⟨-, hv⟩ | ⟨hs, hv⟩ | ⟨-, hv⟩
      · exact absurd (by rw [hv]; rfl) h
      · rw [hv, Noted.val_map, Monitor.pauseAt_val]
      · rw [hv]
        exact hs
      · exact absurd (by rw [hv]; rfl) h
    rw [step_val_of_not_permitted h, Monitor.endCycle, if_neg (by rw [hheld]; decide)]
    rfl

/-- what a step reports it reports at the question -/
theorem step_notes (s : Interpreter σ δ) :
    ∃ ran, s.step.notes = (s.monitor.permit s.machine.pc).notes ++ ran ∧ Note.Silent ran := by
  by_cases h : s.Permitted
  · refine ⟨s.asked.cycle.notes, ?_, cycle_silent _⟩
    unfold Permitted at h
    unfold step
    simp only [Noted.notes_bind, h, if_true]
    split <;> simp [asked]
  · refine ⟨[], ?_, Note.silent_nil⟩
    unfold Permitted at h
    unfold step
    simp only [Noted.notes_bind, h]
    rfl

theorem guardedStep_of_ok {s : Interpreter σ δ} {ran : Bool} (h : s.step.val.2 = .ok ran) :
    s.guardedStep.val = (s.step.val.1, none) ∧ s.guardedStep.notes = s.step.notes := by
  unfold guardedStep
  simp only [Noted.val_bind, Noted.notes_bind, h, Noted.val_pure, Noted.notes_pure, List.append_nil, and_self]

/-! ## One turn -/

section
variable [Display δ]

omit [Input σ] in
/-- what follows a step in a turn shows the screen at most -/
theorem restOfTurn_frame (s : Interpreter σ δ) :
    ∃ redraw display, s.restOfTurn.val.1 =
      { s with machine := { s.machine with redraw := redraw }, display := display } ∧
      Note.Silent s.restOfTurn.notes := by
  have hshown : ∃ redraw display, s.refresh.val.1 =
      { s with machine := { s.machine with redraw := redraw }, display := display } ∧
      Note.Silent s.refresh.notes := by
    unfold refresh Machine.takeRedraw
    by_cases hr : s.machine.redraw = true
    · simp only [hr, if_true]
      cases (Display.render s.display s.machine.screen).2 with
      | none => exact ⟨false, _, rfl, Note.silent_singleton rfl⟩
      | some why => exact ⟨false, _, rfl, Note.silent_nil⟩
    · simp only [if_neg hr]
      exact ⟨false, s.display, rfl, Note.silent_nil⟩
  obtain ⟨redraw, display, hval, hnotes⟩ := hshown
  unfold restOfTurn
  simp only [Noted.val_bind, Noted.notes_bind]
  cases s.refresh.val.2 with
  | some why => exact ⟨redraw, display, hval, hnotes.append Note.silent_nil⟩
  | none =>
    simp only
    split
    · exact ⟨redraw, display, hval, hnotes.append Note.silent_nil⟩
    · exact ⟨redraw, display, hval, hnotes.append (Note.silent_singleton rfl)⟩

/-- **A turn that comes to its step.** It is that step with its fault taken, and what follows changes neither the
monitor nor the program counter and reports nothing. -/
theorem turn_of_question {s : Interpreter σ δ} (h : s.pollInput.2 = .ok true) :
    ∃ redraw display shown, s.turn.val.1 = { s.pollInput.1.guardedStep.val.1 with
      machine := { s.pollInput.1.guardedStep.val.1.machine with redraw := redraw }, display := display } ∧
      s.turn.notes = s.pollInput.1.guardedStep.notes ++ shown ∧ Note.Silent shown := by
  rw [turn_of_poll h]
  simp only [Noted.val_bind, Noted.notes_bind]
  cases s.pollInput.1.guardedStep.val.2 with
  | some f => exact ⟨_, _, [], rfl, rfl, Note.silent_nil⟩
  | none =>
    obtain ⟨redraw, display, hval, hnotes⟩ := restOfTurn_frame s.pollInput.1.guardedStep.val.1
    exact ⟨redraw, display, _, hval, rfl, hnotes⟩

/-- a turn in which the input quits or fails is over when it has been polled -/
theorem turn_of_no_question {s : Interpreter σ δ} (h : s.pollInput.2 ≠ .ok true) :
    s.turn.val.1 = s.pollInput.1 ∧ Note.Silent s.turn.notes := by
  unfold turn
  cases hpoll : s.pollInput.2 with
  | error why =>
    simp only [hpoll]
    exact ⟨rfl, Note.silent_nil⟩
  | ok carryOn =>
    cases carryOn with
    | true => exact absurd hpoll h
    | false =>
      simp only [hpoll]
      exact ⟨rfl, (Note.silent_singleton rfl).append Note.silent_nil⟩

end

/-! ## Actions -/

/-- one thing done to an interpreter or around it -/
inductive Action (σ δ : Type) where
  /-- the debugger sends a command through its handle -/
  | send (cmd : Command)
  /-- a step outside the main loop -/
  | step
  /-- a turn of the main loop -/
  | turn
  /-- the world acts on the machine and the devices: timers tick, keys go up and down, an embedder writes memory -/
  | world (change : Machine → σ → δ → Machine × σ × δ)
  | subscribe
  | unsubscribe
  /-- the subscriber takes the oldest event that waits -/
  | receive

variable [Display δ]

/-- carry out an action -/
def perform (s : Interpreter σ δ) : Action σ δ → Noted (Interpreter σ δ)
  | .send cmd => pure { s with monitor := s.monitor.send cmd }
  | .step => Prod.fst <$> s.step
  | .turn => Prod.fst <$> s.turn
  | .world change =>
    let after := change s.machine s.input s.display
    pure { s with machine := after.1, input := after.2.1, display := after.2.2 }
  | .subscribe => pure { s with monitor := s.monitor.subscribe }
  | .unsubscribe => pure { s with monitor := s.monitor.unsubscribe }
  | .receive => pure { s with monitor := { s.monitor with events := s.monitor.events.map List.tail } }

/-- carry out actions in order -/
def performAll : List (Action σ δ) → Interpreter σ δ → Noted (Interpreter σ δ)
  | [], s => pure s
  | a :: as, s => do
    let s ← s.perform a
    performAll as s

theorem performAll_append (before after : List (Action σ δ)) (s : Interpreter σ δ) :
    performAll (before ++ after) s = performAll before s >>= performAll after := by
  induction before generalizing s with
  | nil => exact (pure_bind s (performAll after)).symm
  | cons a before ih =>
    rw [List.cons_append, performAll, performAll, bind_assoc]
    exact congrArg _ (funext ih)

/-- the interpreter at the question whether a cycle may run, if the action comes to it -/
def question (s : Interpreter σ δ) : Action σ δ → Option (Interpreter σ δ)
  | .step => some s
  | .turn =>
    match s.pollInput.2 with
    | .ok true => some s.pollInput.1
    | _ => none
  | _ => none

omit [Display δ] in
theorem question_turn_eq_some_iff {s t : Interpreter σ δ} :
    s.question .turn = some t ↔ s.pollInput.2 = .ok true ∧ s.pollInput.1 = t := by
  simp only [question]
  split
  case h_1 hpoll => simp [hpoll]
  case h_2 hpoll =>
    constructor
    · intro h
      cases h
    · rintro ⟨h, -⟩
      exact absurd h hpoll

omit [Display δ] in
theorem question_turn_eq_none {s : Interpreter σ δ} (h : s.pollInput.2 ≠ .ok true) : s.question .turn = none := by
  rw [Option.eq_none_iff_forall_ne_some]
  intro t ht
  exact h (question_turn_eq_some_iff.1 ht).1

/-- the interpreters at the questions of a list of actions -/
def questions : List (Action σ δ) → Interpreter σ δ → List (Interpreter σ δ)
  | [], _ => []
  | a :: as, s => (s.question a).toList ++ questions as (s.perform a).val

theorem questions_append (as bs : List (Action σ δ)) (s : Interpreter σ δ) :
    questions (as ++ bs) s = questions as s ++ questions bs (performAll as s).val := by
  induction as generalizing s with
  | nil => rfl
  | cons a as ih =>
    rw [List.cons_append, questions, ih, questions, List.append_assoc]
    rfl

/-- the addresses at which a resume takes effect as the queue is emptied for the question -/
def resumes (s : Interpreter σ δ) : List UInt16 :=
  (s.monitor.drained s.machine.pc).filterMap Monitor.Happening.resumed?

/-- the addresses at which a resume takes effect in a list of actions -/
def resumesIn (as : List (Action σ δ)) (s : Interpreter σ δ) : List UInt16 :=
  (questions as s).flatMap resumes

/-! ## The main loop as actions -/

/-- how many turns there are in a run of at most `n` -/
def turnsMade : Nat → Interpreter σ δ → Nat
  | 0, _ => 0
  | n + 1, s =>
    match s.turn.val with
    | (t, none) => turnsMade n t + 1
    | (_, some _) => 1

/-- the turns of a run are as many actions in a row -/
theorem turns_eq_performAll (n : Nat) (s : Interpreter σ δ) :
    (turns n s).val.1 = (performAll (List.replicate (turnsMade n s) .turn) s).val ∧
    (turns n s).notes = (performAll (List.replicate (turnsMade n s) .turn) s).notes := by
  induction n generalizing s with
  | zero => exact ⟨rfl, rfl⟩
  | succ n ih =>
    obtain ⟨t, ending, hturn⟩ : ∃ t ending, s.turn.val = (t, ending) := ⟨_, _, rfl⟩
    cases ending with
    | some e =>
      simp only [turns, turnsMade, Noted.val_bind, Noted.notes_bind, hturn, List.replicate_one, performAll, perform,
        Noted.val_map, Noted.notes_map, Noted.val_pure, Noted.notes_pure, and_self]
    | none =>
      obtain ⟨hval, hnotes⟩ := ih t
      simp only [turns, turnsMade, Noted.val_bind, Noted.notes_bind, hturn, List.replicate_succ, performAll, perform,
        Noted.val_map, Noted.notes_map, hval, hnotes, and_self]

/-- a main loop is its turns, and perhaps a note that the limit was reached -/
theorem mainLoop_eq_performAll (s : Interpreter σ δ) :
    let made := List.replicate (turnsMade s.limit s) .turn
    s.mainLoop.val.1 = (performAll made s).val ∧
      ∃ closing, s.mainLoop.notes = (performAll made s).notes ++ closing ∧ Note.Silent closing := by
  intro made
  obtain ⟨hval, hnotes⟩ := turns_eq_performAll s.limit s
  unfold mainLoop
  simp only [Noted.val_bind, Noted.notes_bind]
  rw [← hnotes]
  cases (turns s.limit s).val.2 with
  | some e => exact ⟨hval, [], rfl, Note.silent_nil⟩
  | none => exact ⟨hval, _, rfl, (Note.silent_singleton rfl).append Note.silent_nil⟩

end Interpreter

end Chip8
