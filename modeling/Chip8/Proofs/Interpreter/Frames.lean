/-
What is shown is what there is. Two instructions draw on the screen, and they alone ask for it to be shown; the turn in
which one of them goes well shows it, once, before it is over. So between turns no change of the screen waits to be
shown, and the last frame shown is the screen.

A display that fails ends the main loop with the change it did not show, so displays are reliable here: no call of
`render` comes back with an error. A step outside the main loop shows nothing, so runs have none.

Results:
- `execute_picture`: an instruction that draws asks for the screen to be shown, any other leaves screen and request;
- `refresh_reliable`: the screen is shown when that is asked for, and the request is then gone;
- `turn_frames`: what a turn shows;
- `screen_never_stale`: the frames of a whole run.
-/
import Chip8.Proofs.Footprint
import Chip8.Proofs.Interpreter.Turn

namespace Chip8

/-! ## Frames among the notes -/

namespace Note

@[simp] theorem frames_nil : frames [] = [] := rfl

@[simp] theorem frames_append (l l' : List Note) : frames (l ++ l') = frames l ++ frames l' :=
  List.filterMap_append

end Note

namespace Monitor

@[simp] theorem frames_publish (m : Monitor) (event : Event) : Note.frames (m.publish event).notes = [] := by
  unfold publish
  cases m.events with
  | none => rfl
  | some waiting =>
    simp only
    split <;> rfl

@[simp] theorem frames_pauseAt (m : Monitor) (pc : UInt16) : Note.frames (m.pauseAt pc).notes = [] := by
  simp only [pauseAt, Noted.notes_bind, Note.frames_append, frames_publish, List.append_nil]
  rfl

@[simp] theorem frames_halt (m : Monitor) (pc : UInt16) : Note.frames (m.halt pc).notes = [] := by
  unfold halt
  split
  · rfl
  · exact frames_pauseAt m pc

theorem frames_apply (m : Monitor) (pc : UInt16) (cmd : Command) : Note.frames (m.apply pc cmd).notes = [] := by
  cases cmd with
  | setBreakpoint addr => rfl
  | clearBreakpoint addr => rfl
  | pause =>
    simp only [apply]
    split
    · exact frames_pauseAt m pc
    · rfl
  | resume =>
    simp only [apply]
    split <;> rfl
  | step =>
    simp only [apply]
    split <;> rfl

theorem frames_applyAll (pc : UInt16) (cmds : List Command) (m : Monitor) :
    Note.frames (applyAll pc cmds m).notes = [] := by
  induction cmds generalizing m with
  | nil => rfl
  | cons cmd cmds ih => rw [applyAll, Noted.notes_bind, Note.frames_append, frames_apply, ih, List.append_nil]

theorem frames_verdict (m : Monitor) (pc : UInt16) : Note.frames (m.verdict pc).notes = [] := by
  rcases verdict_cases m pc with ⟨-, hv⟩ | ⟨-, hv⟩ | ⟨-, hv⟩ | ⟨-, hv⟩
  · rw [hv]
    rfl
  · rw [hv, Noted.notes_map, frames_pauseAt]
  · rw [hv]
    rfl
  · rw [hv]
    rfl

/-- a question shows nothing -/
@[simp] theorem frames_permit (m : Monitor) (pc : UInt16) : Note.frames (m.permit pc).notes = [] := by
  simp only [permit, poll, Noted.notes_bind, Note.frames_append, frames_applyAll, frames_verdict, List.append_nil]

end Monitor

namespace Countdown

@[simp] theorem frames_cancel (t : Countdown) : Note.frames t.cancel.notes = [] := by
  unfold cancel
  cases t.task <;> rfl

@[simp] theorem frames_switchTone (t : Countdown) (on : Bool) : Note.frames (t.switchTone on).notes = [] := by
  unfold switchTone
  cases t.speaker with
  | none => rfl
  | some speaker =>
    cases speaker with
    | mute => rfl
    | beeper b => simp [Speaker.switch, Note.frames]
    | recorder answers later => cases answers <;> rfl

@[simp] theorem frames_toneOff (t : Countdown) : Note.frames t.toneOff.notes = [] := by
  simp only [toneOff, Noted.notes_bind, Note.frames_append, frames_switchTone, List.nil_append]
  cases (t.switchTone false).val.2 <;> rfl

@[simp] theorem frames_set (t : Countdown) (value : UInt8) : Note.frames (t.set value).notes = [] := by
  simp only [set, Noted.notes_bind, Note.frames_append, frames_cancel, List.nil_append]
  split
  · rfl
  · split
    · exact frames_toneOff _
    · rfl

end Countdown

/-! ## Instructions -/

section
variable {σ : Type} [Input σ]

theorem frames_execute (ins : Instruction) (m : Machine) (dev : σ) : Note.frames (execute ins m dev).notes = [] := by
  cases ins with
  | setDelay x => simp [execute, Machine.setDelay]
  | setSound x => simp [execute, Machine.setSound]
  | _ => rfl

/-- the screen, and whether it waits to be shown -/
def Machine.picture (m : Machine) : Screen × Bool :=
  (m.screen, m.redraw)

theorem Machine.drawAt_picture (m : Machine) (x y : Register) (rows : Nat) :
    ((m.drawAt x y rows).2 = none → (m.drawAt x y rows).1.redraw = true) ∧
    ((m.drawAt x y rows).2 ≠ none → (m.drawAt x y rows).1.picture = m.picture) := by
  cases hd : (m.setV flag 0).draw (m.getV x) (m.getV y) rows with
  | error f =>
    have hdraw : m.drawAt x y rows = (m.setV flag 0, some f) := by simp only [drawAt, hd]
    rw [hdraw]
    exact ⟨fun h => absurd h (by simp), fun _ => rfl⟩
  | ok drawn =>
    obtain ⟨screen, hframe⟩ := draw_frame hd
    have hdraw : m.drawAt x y rows = (drawn.2.setV flag (flagOf drawn.1), none) := by simp only [drawAt, hd]
    rw [hdraw, hframe]
    exact ⟨fun _ => rfl, fun h => absurd rfl h⟩

/-- **Drawing.** An instruction that draws and goes well asks for the screen to be shown. Any other, and one that
faults, leaves the screen and what is asked for. -/
theorem execute_picture (ins : Instruction) (m : Machine) (dev : σ) :
    let out := (execute ins m dev).val
    (ins.isDrawing = true ∧ out.fault = none → out.machine.redraw = true) ∧
    (¬ (ins.isDrawing = true ∧ out.fault = none) → out.machine.picture = m.picture) := by
  intro out
  by_cases hdraws : ins.isDrawing = true
  · cases ins with
    | clear => exact ⟨fun _ => rfl, fun h => absurd ⟨rfl, rfl⟩ h⟩
    | draw x y rows =>
      obtain ⟨hwell, hfault⟩ := m.drawAt_picture x y rows.val
      exact ⟨fun h => hwell h.2, fun h => hfault fun hnone => h ⟨rfl, hnone⟩⟩
    | _ => cases hdraws
  · have hscreen : Piece.screen.Same m dev out.machine out.input :=
      execute_same ins m dev fun hmem => hdraws (screen_mem_footprint (.inl hmem))
    have hredraw : Piece.redraw.Same m dev out.machine out.input :=
      execute_same ins m dev fun hmem => hdraws (screen_mem_footprint (.inr hmem))
    exact ⟨fun h => absurd h.1 hdraws, fun _ => Prod.ext hscreen hredraw⟩

end

/-! ## Displays -/

namespace Display

variable {δ : Type} [Display δ]

/-- a display after frames that it was shown -/
def shown (d : δ) (frames : List Screen) : δ :=
  frames.foldl (fun d frame => (render d frame).1) d

/-- a display that never fails, whatever it is shown -/
def Reliable (d : δ) : Prop :=
  ∀ (frames : List Screen) (frame : Screen), (render (shown d frames) frame).2 = none

theorem Reliable.shown {d : δ} (h : Reliable d) (frames : List Screen) : Reliable (Display.shown d frames) := by
  intro more frame
  have hall := h (frames ++ more) frame
  rwa [Display.shown, List.foldl_append] at hall

end Display

/-- a frame counter without a failure to come is reliable -/
theorem FrameCounter.reliable {d : FrameCounter} (h : d.failure = none) : Display.Reliable d := by
  intro frames frame
  induction frames generalizing d with
  | nil =>
    show (FrameCounter.render d frame).2 = none
    simp [FrameCounter.render, h]
  | cons shown frames ih =>
    have hnext : (FrameCounter.render d shown).1.failure = none := by simp [FrameCounter.render, h]
    exact ih hnext

namespace Interpreter

variable {σ δ : Type} [Input σ]

/-! ## Steps -/

/-- the instruction that the next cycle would execute -/
def upcoming (s : Interpreter σ δ) : Option Instruction :=
  match s.machine.fetch with
  | .error _ => none
  | .ok (opcode, _) => Instruction.decode opcode

/-- the step that comes runs a cycle, and an instruction that draws goes well in it -/
def Draws (s : Interpreter σ δ) : Prop :=
  s.step.val.2 = .ok true ∧ s.upcoming.any Instruction.isDrawing = true

instance (s : Interpreter σ δ) : Decidable s.Draws :=
  inferInstanceAs (Decidable (_ ∧ _))

theorem frames_cycle (s : Interpreter σ δ) : Note.frames s.cycle.notes = [] := by
  unfold cycle
  split
  · rfl
  · split
    · rfl
    · simp only [Noted.notes_bind, Note.frames_append, frames_execute]
      rfl

/-- **The screen in a cycle.** It changes, and waits to be shown, when an instruction that draws goes well. -/
theorem cycle_picture (s : Interpreter σ δ) :
    (s.cycle.val.2 = none ∧ s.upcoming.any Instruction.isDrawing = true → s.cycle.val.1.machine.redraw = true) ∧
    (¬ (s.cycle.val.2 = none ∧ s.upcoming.any Instruction.isDrawing = true) →
      s.cycle.val.1.machine.picture = s.machine.picture) := by
  rcases cycle_cases s with ⟨f, hf, hc⟩ | ⟨opcode, hf, hd, hc⟩ | ⟨opcode, ins, hf, hd, hc⟩
  · rw [hc]
    exact ⟨fun h => absurd h.1 (by simp), fun _ => rfl⟩
  · rw [hc]
    exact ⟨fun h => absurd h.1 (by simp), fun _ => rfl⟩
  · have hupcoming : s.upcoming = some ins := by simp only [upcoming, hf, hd]
    obtain ⟨hwell, hother⟩ := execute_picture ins s.machine.skip s.input
    rw [hc, hupcoming, Option.any_some]
    exact ⟨fun h => hwell ⟨h.2, h.1⟩, fun h => hother fun e => h ⟨e.2, e.1⟩⟩

theorem frames_step (s : Interpreter σ δ) : Note.frames s.step.notes = [] := by
  unfold step
  simp only [Noted.notes_bind, Note.frames_append, Monitor.frames_permit, List.nil_append]
  split
  · simp only [Noted.notes_bind, Note.frames_append, frames_cycle, List.nil_append]
    split <;> rfl
  · rfl

theorem step_picture (s : Interpreter σ δ) :
    (s.Draws → s.step.val.1.machine.redraw = true) ∧
    (¬ s.Draws → s.step.val.1.machine.picture = s.machine.picture) := by
  by_cases hp : s.Permitted
  · have hdraws : s.Draws ↔ s.asked.cycle.val.2 = none ∧ s.asked.upcoming.any Instruction.isDrawing = true := by
      unfold Draws
      rw [step_of_permitted hp]
      cases s.asked.cycle.val.2 with
      | none => simp [upcoming, asked]
      | some f => simp
    rw [hdraws, step_val_of_permitted hp]
    exact cycle_picture s.asked
  · have hdraws : ¬ s.Draws := by
      intro h
      rw [Draws, step_of_not_permitted hp] at h
      exact absurd h.1 (by simp)
    rw [step_val_of_not_permitted hp]
    exact ⟨fun h => absurd h hdraws, fun _ => rfl⟩

/-! ## Faults -/

omit [Input σ] in
theorem frames_report (s : Interpreter σ δ) (pc : UInt16) (f : Fault) : Note.frames (s.report pc f).notes = [] := by
  cases h : s.isRepeat pc f with
  | true => rw [report_of_repeat h, Noted.notes_pure, Note.frames_nil]
  | false =>
    rw [(report_of_new h).2]
    exact s.monitor.frames_publish (.fault pc f)

omit [Input σ] in
theorem frames_takeFault (s : Interpreter σ δ) (pc : UInt16) (f : Fault) :
    Note.frames (s.takeFault pc f).notes = [] := by
  cases h : f.recoverable with
  | false =>
    rw [(takeFault_of_fatal h).2]
    rfl
  | true =>
    rw [(takeFault_of_recoverable h).2, Note.frames_append, frames_report, List.nil_append]
    split
    · exact Monitor.frames_halt _ pc
    · rfl

/-- taking the fault of a step shows nothing, and leaves machine and display as the step did; a fatal one did not
draw -/
theorem guardedStep_picture (s : Interpreter σ δ) :
    Note.frames s.guardedStep.notes = [] ∧ s.guardedStep.val.1.machine = s.step.val.1.machine ∧
    s.guardedStep.val.1.display = s.display ∧ (s.Draws → s.guardedStep.val.2 = none) := by
  obtain ⟨machine, monitor, input, cycles, hstep⟩ := step_frame s
  have hdisplay : s.step.val.1.display = s.display := by rw [hstep]
  cases h : s.step.val.2 with
  | ok ran =>
    obtain ⟨hval, hnotes⟩ := guardedStep_of_ok h
    rw [hval, hnotes]
    exact ⟨frames_step s, rfl, hdisplay, fun _ => rfl⟩
  | error f =>
    obtain ⟨mon, last, n, hframe⟩ := takeFault_frame s.step.val.1 s.machine.pc f
    have hnotes : Note.frames s.guardedStep.notes = [] := by
      rw [guardedStep_of_error h, Noted.notes_bind, Note.frames_append, frames_step, frames_takeFault, List.append_nil]
    have hval : s.guardedStep.val.1 = { s.step.val.1 with monitor := mon, lastFault := last, faults := n } := by
      rw [guardedStep_of_error h, Noted.val_bind, hframe]
    rw [hval]
    refine ⟨hnotes, rfl, hdisplay, fun hdraws => ?_⟩
    rw [Draws, h] at hdraws
    exact absurd hdraws.1 (by simp)

/-! ## Turns -/

variable [Display δ]

omit [Input σ] in
/-- **Showing the screen.** A reliable display is shown the screen if that is asked for, and the request is gone. -/
theorem refresh_reliable {s : Interpreter σ δ} (h : Display.Reliable s.display) :
    s.refresh.val.2 = none ∧ s.refresh.val.1.machine = { s.machine with redraw := false } ∧
    Note.frames s.refresh.notes = (if s.machine.redraw = true then [s.machine.screen] else []) ∧
    s.refresh.val.1.display = Display.shown s.display (Note.frames s.refresh.notes) := by
  have hwell : (Display.render s.display s.machine.screen).2 = none := h [] s.machine.screen
  unfold refresh Machine.takeRedraw
  by_cases hr : s.machine.redraw = true
  · simp only [hr, if_true, hwell]
    exact ⟨rfl, rfl, rfl, rfl⟩
  · simp only [if_neg hr]
    exact ⟨rfl, rfl, rfl, rfl⟩

omit [Input σ] in
theorem restOfTurn_reliable {s : Interpreter σ δ} (h : Display.Reliable s.display) :
    s.restOfTurn.val.1.machine = { s.machine with redraw := false } ∧
    Note.frames s.restOfTurn.notes = (if s.machine.redraw = true then [s.machine.screen] else []) ∧
    s.restOfTurn.val.1.display = Display.shown s.display (Note.frames s.restOfTurn.notes) := by
  obtain ⟨hwell, hmachine, hframes, hdisplay⟩ := refresh_reliable h
  unfold restOfTurn
  simp only [Noted.val_bind, Noted.notes_bind, hwell]
  split
  · simp only [Noted.val_pure, Noted.notes_pure, List.append_nil]
    exact ⟨hmachine, hframes, hdisplay⟩
  · have hclosed : Note.frames [.displayClosed] = [] := rfl
    simp only [Noted.val_bind, Noted.notes_bind, Noted.notes_note, Noted.val_pure, Noted.notes_pure, List.append_nil,
      Note.frames_append, hclosed]
    exact ⟨hmachine, hframes, hdisplay⟩

/-- a turn is over with a fatal step -/
theorem turn_of_fatal {s : Interpreter σ δ} (hpoll : s.pollInput.2 = .ok true) {f : Fault}
    (h : s.pollInput.1.guardedStep.val.2 = some f) :
    s.turn.val.1 = s.pollInput.1.guardedStep.val.1 ∧ s.turn.notes = s.pollInput.1.guardedStep.notes := by
  rw [turn_of_poll hpoll]
  simp only [Noted.val_bind, Noted.notes_bind, h, Noted.val_pure, Noted.notes_pure, List.append_nil, and_self]

/-- after any other step comes the rest of the turn -/
theorem turn_of_stepped {s : Interpreter σ δ} (hpoll : s.pollInput.2 = .ok true)
    (h : s.pollInput.1.guardedStep.val.2 = none) :
    s.turn.val.1 = s.pollInput.1.guardedStep.val.1.restOfTurn.val.1 ∧
    s.turn.notes = s.pollInput.1.guardedStep.notes ++ s.pollInput.1.guardedStep.val.1.restOfTurn.notes := by
  rw [turn_of_poll hpoll]
  simp only [Noted.val_bind, Noted.notes_bind, h, and_self]

theorem frames_turn_of_no_question {s : Interpreter σ δ} (h : s.pollInput.2 ≠ .ok true) :
    Note.frames s.turn.notes = [] := by
  unfold turn
  rcases hpoll : s.pollInput.2 with why | _ | _
  · simp only [hpoll]
    rfl
  · simp only [hpoll]
    rfl
  · exact absurd hpoll h

/-- an instruction that draws goes well in a turn -/
def TurnDraws (s : Interpreter σ δ) : Prop :=
  ∃ q ∈ s.question .turn, q.Draws

/-- what a turn shows when it takes an interpreter to another -/
structure Shows (s t : Interpreter σ δ) (frames : List Screen) : Prop where
  /-- nothing waits to be shown afterwards -/
  settled : t.machine.redraw = false
  /-- the display was given the frames and nothing else -/
  display : t.display = Display.shown s.display frames
  drawn : s.TurnDraws → frames = [t.machine.screen]
  still : ¬ s.TurnDraws → frames = [] ∧ t.machine.screen = s.machine.screen

/-- a turn may end with its question, or before it, if nothing was drawn -/
theorem Shows.of_still {s t : Interpreter σ δ} (hr : s.machine.redraw = false) (h : ¬ s.TurnDraws)
    (hpicture : t.machine.picture = s.machine.picture) (hdisplay : t.display = s.display) : s.Shows t [] := by
  obtain ⟨hscreen, hredraw⟩ := Prod.ext_iff.1 hpicture
  exact ⟨hredraw.trans hr, hdisplay, fun e => absurd e h, fun _ => ⟨rfl, hscreen⟩⟩

/-- **Turns.** With a reliable display and nothing that waits to be shown, a turn in which something is drawn shows the
screen once, as it is then, and any other turn shows nothing and leaves the screen. Nothing waits afterwards. -/
theorem turn_frames {s : Interpreter σ δ} (hd : Display.Reliable s.display) (hr : s.machine.redraw = false) :
    s.Shows s.turn.val.1 (Note.frames s.turn.notes) := by
  by_cases hpoll : s.pollInput.2 = .ok true
  · let u := s.pollInput.1.guardedStep
    have hdraws : s.TurnDraws ↔ s.pollInput.1.Draws := by
      simp [TurnDraws, question_turn_eq_some_iff.2 ⟨hpoll, rfl⟩]
    obtain ⟨hnone, hmachine, hdisplay, hwell⟩ := guardedStep_picture s.pollInput.1
    obtain ⟨hdrawn, hstill⟩ := step_picture s.pollInput.1
    rw [← hmachine, ← hdraws] at hdrawn hstill
    rw [← hdraws] at hwell
    cases hfatal : s.pollInput.1.guardedStep.val.2 with
    | some f =>
      -- a fatal step drew nothing, and the turn is over
      have hnot : ¬ s.TurnDraws := fun h => by simp [hwell h] at hfatal
      obtain ⟨hval, hnotes⟩ := turn_of_fatal hpoll hfatal
      rw [hval, hnotes, hnone]
      exact .of_still hr hnot (hstill hnot) hdisplay
    | none =>
      have hreliable : Display.Reliable u.val.1.display := hdisplay.symm ▸ hd
      obtain ⟨hrest, hframes, hshown⟩ := restOfTurn_reliable hreliable
      obtain ⟨hval, hnotes⟩ := turn_of_stepped hpoll hfatal
      rw [hval, hnotes, Note.frames_append, hnone, List.nil_append]
      refine ⟨by rw [hrest], by rw [hshown, hdisplay]; rfl, ?_, ?_⟩
      · intro h
        rw [hframes, if_pos (hdrawn h), hrest]
      · intro h
        obtain ⟨hscreen, hredraw⟩ := Prod.ext_iff.1 (hstill h)
        have hsettled : u.val.1.machine.redraw = false := hredraw.trans hr
        rw [hframes, if_neg (by simp [hsettled]), hrest]
        exact ⟨rfl, hscreen⟩
  · have hnot : ¬ s.TurnDraws := by
      rintro ⟨q, hq, -⟩
      rw [question_turn_eq_none hpoll] at hq
      cases hq
    rw [(turn_of_no_question hpoll).1, frames_turn_of_no_question hpoll]
    exact .of_still hr hnot rfl rfl

/-! ## Runs -/

/-- what the world may do between turns: the screen is the program's alone, and a display stays reliable. And no step is
made outside the main loop, since that would show nothing. -/
def Action.KeepsPicture : Action σ δ → Prop
  | .step => False
  | .world change => ∀ m dev d, (change m dev d).1.picture = m.picture ∧
      (Display.Reliable d → Display.Reliable (change m dev d).2.2)
  | _ => True

/-- the frames shown so far are up to date -/
structure UpToDate (s : Interpreter σ δ) (frames : List Screen) : Prop where
  /-- the last one is the screen; without one the screen is blank -/
  last : frames.getLast?.getD .blank = s.machine.screen
  settled : s.machine.redraw = false
  reliable : Display.Reliable s.display

/-- how often something is drawn in the turns of a list of actions -/
def drawings (as : List (Action σ δ)) (s : Interpreter σ δ) : Nat :=
  (questions as s).countP fun q => q.Draws

theorem Shows.length {s t : Interpreter σ δ} {frames : List Screen} (h : s.Shows t frames) :
    frames.length = (s.question .turn).toList.countP fun q => q.Draws := by
  cases hq : s.question .turn with
  | none =>
    have hnot : ¬ s.TurnDraws := by
      rintro ⟨q, hmem, -⟩
      rw [hq] at hmem
      cases hmem
    rw [(h.still hnot).1]
    rfl
  | some q =>
    rw [Option.toList_some, List.countP_singleton]
    by_cases hd : q.Draws
    · rw [h.drawn ⟨q, hq, hd⟩]
      simp [hd]
    · have hnot : ¬ s.TurnDraws := by
        rintro ⟨q', hmem, hd'⟩
        rw [hq, Option.mem_some_iff] at hmem
        exact hd (hmem ▸ hd')
      rw [(h.still hnot).1]
      simp [hd]

theorem UpToDate.turn {s : Interpreter σ δ} {frames : List Screen} (h : s.UpToDate frames) :
    s.turn.val.1.UpToDate (frames ++ Note.frames s.turn.notes) := by
  have hshows := turn_frames h.reliable h.settled
  have hreliable : Display.Reliable s.turn.val.1.display := by
    rw [hshows.display]
    exact h.reliable.shown _
  refine ⟨?_, hshows.settled, hreliable⟩
  by_cases hd : s.TurnDraws
  · rw [hshows.drawn hd, List.getLast?_concat]
    rfl
  · obtain ⟨hnone, hscreen⟩ := hshows.still hd
    rw [hnone, List.append_nil, hscreen]
    exact h.last

theorem UpToDate.perform {s : Interpreter σ δ} {frames : List Screen} (h : s.UpToDate frames) {a : Action σ δ}
    (ha : a.KeepsPicture) :
    (s.perform a).val.UpToDate (frames ++ Note.frames (s.perform a).notes) ∧
    (Note.frames (s.perform a).notes).length = (s.question a).toList.countP fun q => q.Draws := by
  cases a with
  | step => exact absurd ha id
  | turn =>
    rw [Interpreter.perform, Noted.val_map, Noted.notes_map]
    exact ⟨h.turn, (turn_frames h.reliable h.settled).length⟩
  | world change =>
    obtain ⟨hpicture, hreliable⟩ := ha s.machine s.input s.display
    obtain ⟨hscreen, hredraw⟩ := Prod.ext_iff.1 hpicture
    simp only [Interpreter.perform, Noted.val_pure, Noted.notes_pure, Note.frames_nil, List.append_nil]
    exact ⟨⟨h.last.trans hscreen.symm, hredraw.trans h.settled, hreliable h.reliable⟩, rfl⟩
  | _ => exact ⟨by simpa [Interpreter.perform] using ⟨h.last, h.settled, h.reliable⟩, rfl⟩

theorem performAll_upToDate {s : Interpreter σ δ} {frames : List Screen} (h : s.UpToDate frames)
    {as : List (Action σ δ)} (has : ∀ a ∈ as, a.KeepsPicture) :
    (performAll as s).val.UpToDate (frames ++ Note.frames (performAll as s).notes) ∧
    (Note.frames (performAll as s).notes).length = drawings as s := by
  induction as generalizing s frames with
  | nil => exact ⟨by simpa [performAll] using h, rfl⟩
  | cons a as ih =>
    obtain ⟨ha, has⟩ := List.forall_mem_cons.1 has
    obtain ⟨hfirst, hcount⟩ := h.perform ha
    obtain ⟨hrest, hcounts⟩ := ih hfirst has
    rw [List.append_assoc, ← Note.frames_append] at hrest
    refine ⟨hrest, ?_⟩
    rw [performAll, Noted.notes_bind, Note.frames_append, List.length_append, hcount, hcounts, drawings, drawings,
      questions, List.countP_append]

omit [Input σ] [Display δ] in
theorem configure_picture (config : Config) (m : Machine) : (configure config m).val.picture = m.picture := by
  unfold configure
  cases config.seed <;> cases config.disableDelay <;> cases config.disableSound <;> rfl

omit [Input σ] in
/-- at the start nothing was shown and the screen is blank -/
theorem create_upToDate (timers : Timers) (random : Generator) (mon : Monitor) (input : σ) {display : δ}
    (h : Display.Reliable display) (config : Config) :
    (create (Machine.fresh timers random) mon input display config).val.UpToDate [] := by
  obtain ⟨hscreen, hredraw⟩ := Prod.ext_iff.1 (configure_picture config (Machine.fresh timers random))
  exact ⟨hscreen.symm, hredraw, h⟩

theorem frames_mainLoop (s : Interpreter σ δ) :
    Note.frames s.mainLoop.notes = Note.frames (performAll (List.replicate (turnsMade s.limit s) .turn) s).notes := by
  rw [← (turns_eq_performAll s.limit s).2]
  unfold mainLoop
  simp only [Noted.notes_bind, Note.frames_append]
  cases (turns s.limit s).val.2 with
  | some e => exact List.append_nil _
  | none => exact List.append_nil _

/-- **The screen is never stale.** Take any run of turns from a fresh machine with a display that never fails, whatever
the settings, the monitor and the input, with commands and changes of the world between the turns, and with a whole main
loop after it that ends as it may.
- The last frame shown is the screen, or none was shown and the screen is blank; nothing waits to be shown.
- There are as many frames as there are turns in which CLS or DRW went well.
- Each of those turns shows one, the screen as it leaves it; no other turn shows anything or changes the screen. -/
theorem screen_never_stale (timers : Timers) (random : Generator) (mon : Monitor) (input : σ) (display : δ)
    (hreliable : Display.Reliable display) (config : Config) (as : List (Action σ δ))
    (hkeeps : ∀ a ∈ as, a.KeepsPicture) :
    let start := (create (Machine.fresh timers random) mon input display config).val
    let run := performAll as start
    let loop := run.val.mainLoop
    let made := List.replicate (turnsMade run.val.limit run.val) .turn
    (run.val.UpToDate (Note.frames run.notes) ∧ loop.val.1.UpToDate (Note.frames (run.notes ++ loop.notes))) ∧
    ((Note.frames run.notes).length = drawings as start ∧
      (Note.frames loop.notes).length = drawings made run.val) ∧
    ∀ before after, as = before ++ .turn :: after →
      let s := (performAll before start).val
      s.Shows s.turn.val.1 (Note.frames s.turn.notes) := by
  intro start run loop made
  have hstart : start.UpToDate [] := create_upToDate timers random mon input hreliable config
  have hmade : ∀ a ∈ made, a.KeepsPicture := by
    intro a ha
    rw [List.eq_of_mem_replicate ha]
    trivial
  obtain ⟨hrun, hcount⟩ := performAll_upToDate hstart hkeeps
  rw [List.nil_append] at hrun
  obtain ⟨hloop, hcounts⟩ := performAll_upToDate hrun hmade
  refine ⟨⟨hrun, ?_⟩, ⟨hcount, ?_⟩, ?_⟩
  · rw [Note.frames_append, frames_mainLoop, (mainLoop_eq_performAll run.val).1]
    exact hloop
  · rw [frames_mainLoop]
    exact hcounts
  · intro before after has s
    rw [has, List.forall_mem_append] at hkeeps
    obtain ⟨hbefore, -⟩ := hkeeps
    obtain ⟨hs, -⟩ := performAll_upToDate hstart hbefore
    exact turn_frames hs.reliable hs.settled

/-- put bytes where programs start -/
def Action.loading (bytes : List UInt8) : Action σ δ :=
  .world fun m dev d => ({ m with memory := ⟨Memory.place m.memory.bytes 0x200 bytes⟩ }, dev, d)

omit [Input σ] in
theorem Action.keepsPicture_loading (bytes : List UInt8) : (Action.loading bytes : Action σ δ).KeepsPicture :=
  fun _ _ _ => ⟨rfl, id⟩

/-- CLS; DRW V0, V0, 5; an opcode that is no instruction; LD I, FFF; DRW V0, V0, 15 with its sprite past the end of
memory; LD V0, K without a key. There is a pause before the third. -/
def drawingRun : List (Action HeldKeys FrameCounter) :=
  [.loading [0x00, 0xE0, 0xD0, 0x05, 0xFF, 0xFF, 0xAF, 0xFF, 0xD0, 0x0F, 0xF0, 0x0A], .turn, .turn, .send .pause, .turn,
    .send .resume, .turn, .turn, .turn, .turn]

/-- main loops of three turns at most -/
def threeTurns : Config :=
  { Config.default with maxCycles := some 3 }

/-- an interpreter to draw on -/
def easel : Interpreter HeldKeys FrameCounter :=
  (create (Machine.fresh .disabled (.ofSeed 0)) .fresh (HeldKeys.ofKeys [] []) FrameCounter.steady threeTurns).val

/-- what becomes of it -/
def painted : Noted (Interpreter HeldKeys FrameCounter) :=
  performAll drawingRun easel

/-- eight turns show two frames, and the main loop after them quits without one more -/
theorem two_of_eight_turns_show :
    Display.Reliable FrameCounter.steady ∧ (∀ a ∈ drawingRun, a.KeepsPicture) ∧
      painted.val.UpToDate (Note.frames painted.notes) ∧ (Note.frames painted.notes).length = 2 ∧
      (Note.frames painted.val.mainLoop.notes).length = 0 ∧
      painted.val.faults = 2 ∧ painted.val.machine.screen.lit 0 0 = true ∧
      painted.val.mainLoop.val.2 = .quit := by
  have hreliable : Display.Reliable FrameCounter.steady := FrameCounter.reliable rfl
  have hkeeps : ∀ a ∈ drawingRun, a.KeepsPicture := by
    intro a ha
    simp only [drawingRun, List.mem_cons, List.not_mem_nil, or_false] at ha
    rcases ha with rfl | rfl | rfl | rfl | rfl | rfl | rfl | rfl | rfl | rfl
    · exact Action.keepsPicture_loading _
    all_goals trivial
  obtain ⟨⟨hrun, -⟩, ⟨hcount, hcounts⟩, -⟩ := screen_never_stale .disabled (.ofSeed 0) .fresh (HeldKeys.ofKeys [] [])
    FrameCounter.steady hreliable threeTurns drawingRun hkeeps
  -- one evaluation of the run for all that is read off it
  obtain ⟨htwo, hnone, hread⟩ : drawings drawingRun easel = 2 ∧
      drawings (List.replicate (turnsMade painted.val.limit painted.val) .turn) painted.val = 0 ∧
      painted.val.faults = 2 ∧ painted.val.machine.screen.lit 0 0 = true ∧ painted.val.mainLoop.val.2 = .quit := by
    decide +kernel
  exact ⟨hreliable, hkeeps, hrun, hcount.trans htwo, hcounts.trans hnone, hread⟩

end Interpreter

end Chip8
