/-
A monitor over time. A `Call` is one thing done to a monitor: a command from the debugger's handle, a breakpoint set
directly, or what the main loop asks and orders. `performAll` carries calls out in order, and `history` writes down what
bears on the run state: every command that was carried out, with the run state before and after it, and every question
whether a cycle may run, with the run state it was answered in.

Results:
- `publish_val`, `pauseAt_val`: an event touches the subscriber's queue only, a pause also the run state;
- `apply_starts`: only a resume takes a monitor to running;
- `perform_commands`: only a sent command makes an empty queue grow;
- `permit_val`: a question empties the queue, then comes the verdict;
- `verdict_cases`: the four verdicts.
-/
import Chip8.Monitor

namespace Chip8

/-! ## What is published -/

/-- the pauses among the notes, in order -/
def Note.pauses (notes : List Note) : List UInt16 :=
  notes.filterMap fun
    | .paused pc => some pc
    | _ => none

@[simp] theorem Note.pauses_append (l l' : List Note) : pauses (l ++ l') = pauses l ++ pauses l' :=
  List.filterMap_append

/-- the resumes among the notes, in order -/
def Note.resumes (notes : List Note) : List UInt16 :=
  notes.filterMap fun
    | .resumed pc => some pc
    | _ => none

@[simp] theorem Note.resumes_append (l l' : List Note) : resumes (l ++ l') = resumes l ++ resumes l' :=
  List.filterMap_append

/-! ## Notes that report nothing -/

/-- does the note report a pause, a resume or a fault? -/
def Note.isReport : Note → Bool
  | paused _ | resumed _ | fault _ _ => true
  | _ => false

/-- no note reports a pause, a resume or a fault -/
def Note.Silent (notes : List Note) : Prop :=
  ∀ n ∈ notes, n.isReport = false

namespace Note

theorem silent_nil : Silent [] := by
  intro n hn
  cases hn

theorem silent_append {l l' : List Note} : Silent (l ++ l') ↔ Silent l ∧ Silent l' :=
  List.forall_mem_append

theorem silent_singleton {n : Note} (h : n.isReport = false) : Silent [n] := by
  intro n' hn
  rw [List.mem_singleton.1 hn]
  exact h

theorem Silent.append {l l' : List Note} (h : Silent l) (h' : Silent l') : Silent (l ++ l') :=
  silent_append.2 ⟨h, h'⟩

theorem pauses_of_silent {notes : List Note} (h : Silent notes) : pauses notes = [] := by
  refine List.filterMap_eq_nil_iff.2 fun n hn => ?_
  have hsilent := h n hn
  cases n with
  | paused pc => cases hsilent
  | _ => rfl

theorem resumes_of_silent {notes : List Note} (h : Silent notes) : resumes notes = [] := by
  refine List.filterMap_eq_nil_iff.2 fun n hn => ?_
  have hsilent := h n hn
  cases n with
  | resumed pc => cases hsilent
  | _ => rfl

end Note

namespace Monitor

/-- the subscriber's queue after an event: a full one stays as it is -/
def heard (m : Monitor) (event : Event) : Option (List Event) :=
  m.events.map fun waiting => if waiting.length < eventCapacity then waiting ++ [event] else waiting

theorem publish_val (m : Monitor) (event : Event) : (m.publish event).val = { m with events := m.heard event } := by
  rcases m with ⟨bs, st, res, cmds, _ | waiting⟩
  · rfl
  · simp only [publish, heard, Option.map_some]
    split <;> rfl

theorem publish_silent (m : Monitor) (event : Event) : Note.Silent (m.publish event).notes := by
  unfold publish
  cases m.events with
  | none => exact Note.silent_nil
  | some waiting =>
    simp only
    split
    · exact Note.silent_nil
    · exact (Note.silent_singleton rfl).append Note.silent_nil

theorem pauses_publish (m : Monitor) (event : Event) : Note.pauses (m.publish event).notes = [] := by
  unfold publish
  cases m.events with
  | none => rfl
  | some waiting =>
    simp only
    split <;> rfl

theorem pauseAt_val (m : Monitor) (pc : UInt16) :
    (m.pauseAt pc).val = { m with state := .paused, events := m.heard (.paused pc) } := by
  simp only [pauseAt, Noted.val_bind, publish_val]
  rfl

theorem pauses_pauseAt (m : Monitor) (pc : UInt16) : Note.pauses (m.pauseAt pc).notes = [pc] := by
  simp only [pauseAt, Noted.notes_bind, Note.pauses_append, pauses_publish, List.append_nil]
  rfl

/-! ## Calls -/

/-- one thing done to a monitor -/
inductive Call where
  /-- the debugger sends a command through its handle -/
  | send (cmd : Command)
  | setBreakpoint (addr : UInt16)
  | clearBreakpoint (addr : UInt16)
  | poll (pc : UInt16)
  | permit (pc : UInt16)
  | endCycle
  | halt (pc : UInt16)
  | reportFault (pc : UInt16) (fault : Fault)
  | subscribe
  | unsubscribe
  | drainEvents
  deriving DecidableEq, Repr

/-- carry out a call -/
def perform (m : Monitor) : Call → Noted Monitor
  | .send cmd => pure (m.send cmd)
  | .setBreakpoint addr => pure (m.setBreakpoint addr)
  | .clearBreakpoint addr => pure (m.clearBreakpoint addr)
  | .poll pc => m.poll pc
  | .permit pc => Prod.snd <$> m.permit pc
  | .endCycle => pure m.endCycle
  | .halt pc => m.halt pc
  | .reportFault pc f => m.reportFault pc f
  | .subscribe => pure m.subscribe
  | .unsubscribe => pure m.unsubscribe
  | .drainEvents => pure m.drainEvents.2

/-- carry out calls in order -/
def performAll : List Call → Monitor → Noted Monitor
  | [], m => pure m
  | c :: cs, m => do
    let m ← m.perform c
    performAll cs m

/-! ## History -/

/-- what bears on the run state -/
inductive Happening where
  /-- a command was carried out with the machine at `pc`; the run state before it and after it -/
  | applied (cmd : Command) (pc : UInt16) (before after : RunState)
  /-- with no command waiting, it was asked whether the cycle at `pc` may run -/
  | asked (pc : UInt16) (state : RunState)
  deriving DecidableEq, Repr

/-- where a resume took effect: it found the monitor active and set it running -/
def Happening.resumed? : Happening → Option UInt16
  | .applied .resume pc before after => if before ≠ .running ∧ after = .running then some pc else none
  | _ => none

/-- what happens when commands are carried out -/
def applications (pc : UInt16) : List Command → Monitor → List Happening
  | [], _ => []
  | cmd :: cmds, m =>
    .applied cmd pc m.state (m.apply pc cmd).val.state :: applications pc cmds (m.apply pc cmd).val

/-- what happens when the queue is emptied -/
def drained (m : Monitor) (pc : UInt16) : List Happening :=
  applications pc m.commands { m with commands := [] }

/-- what happens in a call -/
def happenings (m : Monitor) : Call → List Happening
  | .poll pc => m.drained pc
  | .permit pc => m.drained pc ++ [.asked pc (m.poll pc).val.state]
  | _ => []

/-- what happens in a list of calls -/
def history : List Call → Monitor → List Happening
  | [], _ => []
  | c :: cs, m => m.happenings c ++ history cs (m.perform c).val

/-! ## One command -/

/-- only a resume takes a monitor to running -/
theorem apply_starts {m : Monitor} {pc : UInt16} {cmd : Command} (hb : m.state ≠ .running)
    (ha : (m.apply pc cmd).val.state = .running) : cmd = .resume := by
  cases cmd with
  | setBreakpoint addr => exact absurd ha hb
  | clearBreakpoint addr => exact absurd ha hb
  | pause => simp [apply, hb] at ha
  | resume => rfl
  | step =>
    cases hs : m.state with
    | running => exact absurd hs hb
    | paused => simp [apply, hs] at ha
    | stepArmed => simp [apply, hs] at ha

@[simp] theorem apply_commands (m : Monitor) (pc : UInt16) (cmd : Command) :
    (m.apply pc cmd).val.commands = m.commands := by
  cases cmd with
  | setBreakpoint addr => rfl
  | clearBreakpoint addr => rfl
  | pause =>
    simp only [apply]
    split
    · rw [pauseAt_val]
    · rfl
  | resume =>
    simp only [apply]
    split <;> rfl
  | step =>
    simp only [apply]
    split <;> rfl

@[simp] theorem applyAll_commands (pc : UInt16) (cmds : List Command) (m : Monitor) :
    (applyAll pc cmds m).val.commands = m.commands := by
  induction cmds generalizing m with
  | nil => rfl
  | cons cmd cmds ih => exact (ih _).trans (apply_commands m pc cmd)

@[simp] theorem poll_commands (m : Monitor) (pc : UInt16) : (m.poll pc).val.commands = [] :=
  applyAll_commands pc m.commands _

/-- with nothing in the queue there is nothing to carry out -/
theorem poll_of_empty {m : Monitor} (h : m.commands = []) (pc : UInt16) : (m.poll pc).val = m := by
  unfold poll
  rw [h]
  cases m
  cases h
  rfl

theorem permit_val (m : Monitor) (pc : UInt16) : (m.permit pc).val = ((m.poll pc).val.verdict pc).val := rfl

theorem verdict_commands (m : Monitor) (pc : UInt16) : (m.verdict pc).val.2.commands = m.commands := by
  unfold verdict
  split
  · split
    · rfl
    · split
      · simp only [Noted.val_bind, pauseAt_val, Noted.val_pure]
      · rfl
  · rfl
  · rfl

/-- **A verdict.** A running machine goes on, or is paused at a breakpoint; a paused one is held; an armed step runs. -/
theorem verdict_cases (m : Monitor) (pc : UInt16) :
    (m.state = .running ∧ m.verdict pc = pure (true, { m with resumedAt := none })) ∨
    (m.state = .running ∧ m.verdict pc = (false, ·) <$> { m with resumedAt := none }.pauseAt pc) ∨
    (m.state = .paused ∧ m.verdict pc = pure (false, m)) ∨
    (m.state = .stepArmed ∧ m.verdict pc = pure (true, m)) := by
  unfold verdict
  cases hs : m.state with
  | running =>
    by_cases hr : m.resumedAt = some pc
    · exact Or.inl ⟨rfl, if_pos hr⟩
    · by_cases hb : m.isBreakpoint pc = true
      · exact Or.inr (Or.inl ⟨rfl, (if_neg hr).trans (if_pos hb)⟩)
      · exact Or.inl ⟨rfl, (if_neg hr).trans (if_neg hb)⟩
  | paused => exact Or.inr (Or.inr (Or.inl ⟨rfl, rfl⟩))
  | stepArmed => exact Or.inr (Or.inr (Or.inr ⟨rfl, rfl⟩))

theorem halt_state (m : Monitor) (pc : UInt16) : (m.halt pc).val.state = .paused := by
  unfold halt
  split
  case isTrue h => exact h
  case isFalse h => rw [pauseAt_val]

theorem endCycle_state (m : Monitor) : m.endCycle.state = if m.state = .stepArmed then .paused else m.state := by
  unfold endCycle
  split <;> rfl

/-- only a sent command makes an empty queue grow -/
theorem perform_commands {m : Monitor} (h : m.commands = []) {c : Call} (hc : ∀ cmd, c ≠ .send cmd) :
    (m.perform c).val.commands = [] := by
  cases c with
  | send cmd => exact absurd rfl (hc cmd)
  | poll pc => exact poll_commands m pc
  | permit pc => exact (verdict_commands _ pc).trans (poll_commands m pc)
  | endCycle =>
    simp only [perform, endCycle, Noted.val_pure]
    split <;> exact h
  | halt pc =>
    simp only [perform, halt]
    split
    · exact h
    · rw [pauseAt_val]
      exact h
  | reportFault pc f =>
    simp only [perform, reportFault, publish_val]
    exact h
  | _ => exact h

theorem permit_notes (m : Monitor) (pc : UInt16) :
    (m.permit pc).notes = (m.poll pc).notes ++ ((m.poll pc).val.verdict pc).notes := rfl

end Monitor

end Chip8
