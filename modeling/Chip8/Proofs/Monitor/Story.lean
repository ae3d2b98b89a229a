/-
What a monitor does, told by what it notes. Whatever is asked of a monitor, it pauses only while it runs, is resumed
only while it is active, and every pause goes to its subscriber. `Story m notes m'` says that the notes are how `m` came
to be `m'`; what holds of all that a monitor notes is then shown on stories, once for each thing that can happen in one.

A halt is the one place where this could go wrong: a monitor with a step armed is active already, and halting it would
publish a second pause.

A fault is told to the subscriber by itself (`tell`), between two stories.

Results:
- `permit_story`: a question, with the commands that are carried out for it;
- `halt_story`: a halt with no step armed.
-/
import Chip8.Proofs.Monitor.History

namespace Chip8.Monitor

/-- the notes are what a monitor did to come from one state to another -/
inductive Story : Monitor → List Note → Monitor → Prop
  /-- nothing that is reported, as in a command about breakpoints or at the end of a single step -/
  | quiet {m m' : Monitor} {notes : List Note} (silent : Note.Silent notes) (active : m'.isActive = m.isActive)
      (events : m'.events = m.events) : Story m notes m'
  | paused {m m' : Monitor} {pc : UInt16} (running : m.isActive = false) (active : m'.isActive = true)
      (events : m'.events = m.heard (.paused pc)) : Story m [.paused pc] m'
  | resumed {m m' : Monitor} {pc : UInt16} (active : m.isActive = true) (running : m'.isActive = false)
      (events : m'.events = m.events) : Story m [.resumed pc] m'
  | append {m m' m'' : Monitor} {l l' : List Note} (first : Story m l m') (rest : Story m' l' m'') :
      Story m (l ++ l') m''

/-- a story may begin with something that is not reported and not noted -/
theorem Story.of_frame {m m₀ m' : Monitor} {notes : List Note} (h : Story m₀ notes m')
    (active : m₀.isActive = m.isActive) (events : m₀.events = m.events) : Story m notes m' :=
  have hnone : Story m [] m₀ := .quiet Note.silent_nil active events
  hnone.append h

/-- a running monitor that pauses says so once -/
theorem pauseAt_story {m : Monitor} (h : m.state = .running) (pc : UInt16) :
    Story m (m.pauseAt pc).notes (m.pauseAt pc).val := by
  have hpaused : Story m [.paused pc] (m.pauseAt pc).val := by
    rw [pauseAt_val]
    exact .paused (by simp [isActive, h]) (by simp [isActive]) rfl
  exact hpaused.append (.quiet (publish_silent _ _) rfl rfl)

theorem apply_story (m : Monitor) (pc : UInt16) (cmd : Command) :
    Story m (m.apply pc cmd).notes (m.apply pc cmd).val := by
  cases cmd with
  | setBreakpoint addr => exact .quiet Note.silent_nil rfl rfl
  | clearBreakpoint addr => exact .quiet Note.silent_nil rfl rfl
  | pause =>
    simp only [apply]
    split
    case isTrue hs => exact pauseAt_story hs pc
    case isFalse => exact .quiet Note.silent_nil rfl rfl
  | resume =>
    by_cases hs : m.state = .running
    · simp only [apply, if_pos hs]
      exact .quiet Note.silent_nil rfl rfl
    · simp only [apply, if_neg hs]
      exact .resumed (by simp [isActive, hs]) (by simp [isActive]) rfl
  | step =>
    cases hs : m.state with
    | running =>
      simp only [apply, hs]
      exact .quiet ((Note.silent_singleton rfl).append Note.silent_nil) rfl rfl
    | paused =>
      simp only [apply, hs]
      exact .quiet Note.silent_nil (by simp [isActive, hs]) rfl
    | stepArmed =>
      simp only [apply, hs]
      exact .quiet Note.silent_nil rfl rfl

theorem applyAll_story (pc : UInt16) (cmds : List Command) (m : Monitor) :
    Story m (applyAll pc cmds m).notes (applyAll pc cmds m).val := by
  induction cmds generalizing m with
  | nil => exact .quiet Note.silent_nil rfl rfl
  | cons cmd cmds ih => exact (apply_story m pc cmd).append (ih _)

theorem poll_story (m : Monitor) (pc : UInt16) : Story m (m.poll pc).notes (m.poll pc).val :=
  .of_frame (applyAll_story pc m.commands { m with commands := [] }) rfl rfl

theorem verdict_story (m : Monitor) (pc : UInt16) : Story m (m.verdict pc).notes (m.verdict pc).val.2 := by
  rcases verdict_cases m pc with ⟨-, hv⟩ | ⟨hs, hv⟩ | ⟨-, hv⟩ | ⟨-, hv⟩
  · rw [hv]
    exact .quiet Note.silent_nil rfl rfl
  · rw [hv, Noted.val_map, Noted.notes_map]
    exact .of_frame (pauseAt_story (m := { m with resumedAt := none }) hs pc) rfl rfl
  · rw [hv]
    exact .quiet Note.silent_nil rfl rfl
  · rw [hv]
    exact .quiet Note.silent_nil rfl rfl

/-- **A question.** The commands that wait are carried out for it, and a breakpoint may pause the machine. -/
theorem permit_story (m : Monitor) (pc : UInt16) : Story m (m.permit pc).notes (m.permit pc).val.2 :=
  (poll_story m pc).append (verdict_story (m.poll pc).val pc)

theorem endCycle_story (m : Monitor) : Story m [] m.endCycle := by
  unfold endCycle
  split
  case isTrue h => exact .quiet Note.silent_nil (by simp [isActive, h]) rfl
  case isFalse => exact .quiet Note.silent_nil rfl rfl

/-- **A halt.** With no step armed, it pauses a running machine and else does nothing. -/
theorem halt_story {m : Monitor} (h : m.state ≠ .stepArmed) (pc : UInt16) :
    Story m (m.halt pc).notes (m.halt pc).val := by
  unfold halt
  cases hs : m.state with
  | running => exact pauseAt_story hs pc
  | paused => exact .quiet Note.silent_nil rfl rfl
  | stepArmed => exact absurd hs h

theorem pauses_halt (m : Monitor) (pc : UInt16) :
    Note.pauses (m.halt pc).notes = if m.state = .paused then [] else [pc] := by
  unfold halt
  split
  · rfl
  · exact pauses_pauseAt m pc

/-! ## Faults -/

/-- tell the subscriber of a fault, if there is a new one -/
def tell (m : Monitor) : Option (UInt16 × Fault) → Noted Monitor
  | none => pure m
  | some (pc, f) => do
    Noted.note (.fault pc f)
    m.reportFault pc f

theorem tell_state (m : Monitor) (new : Option (UInt16 × Fault)) : (m.tell new).val.state = m.state := by
  cases new with
  | none => rfl
  | some p => simp only [tell, Noted.val_bind, reportFault, publish_val]

/-! ## What carries over -/

/-- a relation that holds of stories and of faults told, and carries over from one to the next -/
structure Chained (R : Monitor → Monitor → List Note → Prop) : Prop where
  story : ∀ {m m' : Monitor} {notes : List Note}, Story m notes m' → R m m' notes
  tell : ∀ (m : Monitor) (new : Option (UInt16 × Fault)), R m (m.tell new).val (m.tell new).notes
  append : ∀ {m m' m'' : Monitor} {l l' : List Note}, R m m' l → R m' m'' l' → R m m'' (l ++ l')

end Chip8.Monitor
