/-
When a machine may run on at a breakpoint. A resume exempts the breakpoint at the address it was carried out at, and the
next question that is answered while running spends the exemption, whatever address it is about.

A monitor keeps the exempt address (`resumedAt`) without saying how it came there: a pause, a step, a cleared breakpoint
or polls at other addresses all leave it. The invariant is that it is the address that `exempt` reads off the history
(`performAll_resumedAt`), and `foldl_exempt_eq_some_iff` says which histories exempt an address.

Result, over every list of calls on a new monitor:
- `permit_at_breakpoint`: at a breakpoint the cycle may run only as a single step, or while running when the last start
  was a resume at this very address and nothing was asked while running since. Any other hit while running pauses the
  monitor and is published once, and without a new command the same breakpoint is not passed twice.
-/
import Mathlib.Data.List.Induction
import Chip8.Proofs.Monitor.History

namespace Chip8.Monitor

/-! ## Exemption as a property of the history -/

/-- a command that took the monitor to running -/
def Happening.Starts : Happening → Prop
  | .applied _ _ before after => before ≠ .running ∧ after = .running
  | .asked _ _ => False

/-- a question answered while running -/
def Happening.AskedRunning : Happening → Prop
  | .applied _ _ _ _ => False
  | .asked _ state => state = .running

/-- the last start was a resume with the machine at `pc`, and nothing was asked while running since -/
def ResumedAt (past : List Happening) (pc : UInt16) : Prop :=
  ∃ before state after, past = before ++ .applied .resume pc state .running :: after ∧ state ≠ .running ∧
    ∀ h ∈ after, ¬ h.Starts ∧ ¬ h.AskedRunning

/-- the exempt address after one more happening -/
def exempt (e : Option UInt16) : Happening → Option UInt16
  | .applied cmd pc before after =>
    if before ≠ .running ∧ after = .running then if cmd = .resume then some pc else none else e
  | .asked _ state => if state = .running then none else e

theorem resumedAt_concat_iff (past : List Happening) (h : Happening) (pc : UInt16) :
    ResumedAt (past ++ [h]) pc ↔
      (∃ state, state ≠ .running ∧ h = .applied .resume pc state .running) ∨
        (¬ h.Starts ∧ ¬ h.AskedRunning ∧ ResumedAt past pc) := by
  constructor
  · rintro ⟨before, state, after, e, hs, hall⟩
    rcases List.eq_nil_or_concat after with rfl | ⟨after, x, rfl⟩
    · obtain ⟨-, e2⟩ := List.append_inj' e rfl
      exact Or.inl ⟨state, hs, (List.cons.inj e2).1⟩
    · rw [List.concat_eq_append, ← List.cons_append, ← List.append_assoc] at e
      obtain ⟨e1, e2⟩ := List.append_inj' e rfl
      obtain ⟨rfl, -⟩ := List.cons.inj e2
      obtain ⟨h1, h2⟩ := hall h (by simp)
      exact Or.inr ⟨h1, h2, before, state, after, e1, hs, fun y hy => hall y (by simp [hy])⟩
  · rintro (⟨state, hs, rfl⟩ | ⟨h1, h2, before, state, after, rfl, hs, hall⟩)
    · exact ⟨past, state, [], rfl, hs, by simp⟩
    · refine ⟨before, state, after ++ [h], by simp, hs, ?_⟩
      intro y hy
      rcases List.mem_append.1 hy with hy | hy
      · exact hall y hy
      · rw [List.mem_singleton.1 hy]
        exact ⟨h1, h2⟩

/-- **What `exempt` computes.** An address is exempt after a history just when the last start was a resume there and
nothing was asked while running since. -/
theorem foldl_exempt_eq_some_iff (past : List Happening) (pc : UInt16) :
    past.foldl exempt none = some pc ↔ ResumedAt past pc := by
  induction past using List.reverseRecOn with
  | nil => simp [ResumedAt]
  | append_singleton past h ih =>
    rw [List.foldl_append, resumedAt_concat_iff, ← ih]
    cases h with
    | asked a state => by_cases hs : state = .running <;> simp [exempt, Happening.Starts, Happening.AskedRunning, hs]
    | applied cmd a before after =>
      by_cases hst : before ≠ .running ∧ after = .running
      · obtain ⟨hb, rfl⟩ := hst
        by_cases hc : cmd = .resume
        · simp [exempt, Happening.Starts, hb, hc]
        · simp [exempt, Happening.Starts, hb, hc]
      · have hne : ∀ state, state ≠ .running →
            Happening.applied cmd a before after ≠ .applied .resume pc state .running := by
          rintro state hs e
          cases e
          exact hst ⟨hs, rfl⟩
        simp only [List.foldl_cons, List.foldl_nil, exempt, if_neg hst, Happening.Starts, Happening.AskedRunning]
        grind

/-! ## The invariant: a monitor keeps the exempt address -/

theorem apply_resumedAt (m : Monitor) (pc : UInt16) (cmd : Command) :
    (m.apply pc cmd).val.resumedAt = exempt m.resumedAt (.applied cmd pc m.state (m.apply pc cmd).val.state) := by
  by_cases hst : m.state ≠ .running ∧ (m.apply pc cmd).val.state = .running
  · obtain rfl := apply_starts hst.1 hst.2
    simp [exempt, hst, apply]
  · rw [exempt, if_neg hst]
    cases cmd with
    | setBreakpoint addr => rfl
    | clearBreakpoint addr => rfl
    | pause =>
      simp only [apply]
      split
      · rw [pauseAt_val]
      · rfl
    | resume =>
      by_cases hs : m.state = .running
      · simp [apply, hs]
      · exact absurd ⟨hs, by simp [apply, hs]⟩ hst
    | step =>
      simp only [apply]
      split <;> rfl

theorem applyAll_resumedAt (pc : UInt16) (cmds : List Command) (m : Monitor) :
    (applyAll pc cmds m).val.resumedAt = (applications pc cmds m).foldl exempt m.resumedAt := by
  induction cmds generalizing m with
  | nil => rfl
  | cons cmd cmds ih =>
    rw [applications, List.foldl_cons, ← apply_resumedAt]
    exact ih (m.apply pc cmd).val

theorem poll_resumedAt (m : Monitor) (pc : UInt16) :
    (m.poll pc).val.resumedAt = (m.drained pc).foldl exempt m.resumedAt :=
  applyAll_resumedAt pc m.commands _

/-- a question answered while running spends the exemption, any other leaves it -/
theorem verdict_resumedAt (m : Monitor) (pc : UInt16) :
    (m.verdict pc).val.2.resumedAt = exempt m.resumedAt (.asked pc m.state) := by
  cases hs : m.state with
  | running =>
    simp only [verdict, hs, exempt, if_true]
    split
    · rfl
    · split
      · simp only [Noted.val_bind, pauseAt_val, Noted.val_pure]
      · rfl
  | paused => simp [verdict, hs, exempt]
  | stepArmed => simp [verdict, hs, exempt]

theorem perform_resumedAt (m : Monitor) (c : Call) :
    (m.perform c).val.resumedAt = (m.happenings c).foldl exempt m.resumedAt := by
  cases c with
  | poll pc => exact poll_resumedAt m pc
  | permit pc =>
    rw [happenings, List.foldl_append, ← poll_resumedAt]
    exact verdict_resumedAt (m.poll pc).val pc
  | endCycle =>
    simp only [perform, endCycle, happenings, List.foldl_nil, Noted.val_pure]
    split <;> rfl
  | halt pc =>
    simp only [perform, halt, happenings, List.foldl_nil]
    split
    · rfl
    · rw [pauseAt_val]
  | reportFault pc f => simp only [perform, reportFault, publish_val, happenings, List.foldl_nil]
  | _ => rfl

/-- **The invariant.** After any calls a monitor keeps the address that its history exempts. -/
theorem performAll_resumedAt (cs : List Call) (m : Monitor) :
    (performAll cs m).val.resumedAt = (history cs m).foldl exempt m.resumedAt := by
  induction cs generalizing m with
  | nil => rfl
  | cons c cs ih =>
    rw [history, List.foldl_append, ← perform_resumedAt]
    exact ih (m.perform c).val

/-! ## The verdict at a breakpoint -/

/-- while running, the breakpoint lets through exactly the exempt address -/
theorem verdict_running {m : Monitor} {pc : UInt16} (hs : m.state = .running) (hb : m.isBreakpoint pc = true) :
    (m.verdict pc).val.1 = true ↔ m.resumedAt = some pc := by
  by_cases hr : m.resumedAt = some pc
  · simp [verdict, hs, hr]
  · simp [verdict, hs, hr, hb]

/-- a hit: the monitor is paused, and this is published once -/
theorem verdict_hit {m : Monitor} {pc : UInt16} (hs : m.state = .running) (hb : m.isBreakpoint pc = true)
    (hr : m.resumedAt ≠ some pc) :
    (m.verdict pc).val = (false, { m with state := .paused, resumedAt := none, events := m.heard (.paused pc) }) ∧
      Note.pauses (m.verdict pc).notes = [pc] := by
  simp only [verdict, hs, if_neg hr, hb, if_true]
  refine ⟨?_, ?_⟩
  · simp only [Noted.val_bind, pauseAt_val, Noted.val_pure]
    rfl
  · simp only [Noted.notes_bind, Noted.notes_pure, List.append_nil, pauses_pauseAt]

/-- nothing is exempt, and no command waits that could change this -/
def Spent (m : Monitor) : Prop :=
  m.resumedAt = none ∧ m.commands = []

/-- a question answered while running leaves the exemption spent -/
theorem spent_permit {m : Monitor} {pc : UInt16} (hs : (m.poll pc).val.state = .running) :
    Spent (m.permit pc).val.2 := by
  refine ⟨?_, ?_⟩
  · rw [permit_val, verdict_resumedAt, hs]
    rfl
  · rw [permit_val, verdict_commands, poll_commands]

theorem spent_poll {m : Monitor} (h : Spent m) (pc : UInt16) : Spent (m.poll pc).val := by
  rw [poll_of_empty h.2]
  exact h

/-- without a command, the exempt address stays or is spent -/
theorem resumedAt_perform_of_empty {m : Monitor} (h : m.commands = []) {c : Call} (hc : ∀ cmd, c ≠ .send cmd) :
    (m.perform c).val.resumedAt = m.resumedAt ∨ (m.perform c).val.resumedAt = none := by
  rw [perform_resumedAt]
  cases c with
  | poll pc =>
    rw [happenings, drained, h]
    exact Or.inl rfl
  | permit pc =>
    rw [happenings, drained, h]
    by_cases hs : (m.poll pc).val.state = .running
    · exact Or.inr (by simp [applications, exempt, hs])
    · exact Or.inl (by simp [applications, exempt, hs])
  | _ => exact Or.inl rfl

/-- without a command, whatever else is done leaves the exemption spent -/
theorem spent_perform {m : Monitor} (h : Spent m) {c : Call} (hc : ∀ cmd, c ≠ .send cmd) : Spent (m.perform c).val := by
  refine ⟨?_, perform_commands h.2 hc⟩
  rcases resumedAt_perform_of_empty h.2 hc with e | e
  · exact e.trans h.1
  · exact e

theorem spent_performAll {m : Monitor} (h : Spent m) (cs : List Call) (hcs : ∀ cmd, Call.send cmd ∉ cs) :
    Spent (performAll cs m).val := by
  induction cs generalizing m with
  | nil => exact h
  | cons c cs ih =>
    refine ih (spent_perform h ?_) ?_
    · rintro cmd rfl
      exact hcs cmd List.mem_cons_self
    · exact fun cmd hm => hcs cmd (List.mem_cons_of_mem c hm)

/-- **Breakpoint safety.** After any calls on a new monitor, with `d` the monitor when the queue is empty and `past` all
that happened up to then, let there be a breakpoint at `pc`.
- The cycle may run just when a single step is armed, or the monitor is running, was last started by a resume at `pc`,
  and nothing was asked while running since.
- Any other hit while running holds the machine, pauses the monitor, and is published once.
- Once the breakpoint was passed while running, nothing but a new command lets it be passed while running again. -/
theorem permit_at_breakpoint (calls : List Call) (pc : UInt16)
    (hb : ((performAll calls fresh).val.poll pc).val.isBreakpoint pc = true) :
    let m := (performAll calls fresh).val
    let d := (m.poll pc).val
    let past := history calls fresh ++ m.drained pc
    ((m.permit pc).val.1 = true ↔ d.state = .stepArmed ∨ d.state = .running ∧ ResumedAt past pc) ∧
    (d.state = .running → ¬ ResumedAt past pc →
      (m.permit pc).val = (false, { d with state := .paused, resumedAt := none, events := d.heard (.paused pc) }) ∧
      Note.pauses (m.permit pc).notes = Note.pauses (m.poll pc).notes ++ [pc]) ∧
    (d.state = .running → ∀ between, (∀ cmd, Call.send cmd ∉ between) →
      let m' := (performAll between (m.permit pc).val.2).val
      (m'.poll pc).val.state = .running → (m'.poll pc).val.isBreakpoint pc = true → (m'.permit pc).val.1 = false) := by
  intro m d past
  have hpast : d.resumedAt = some pc ↔ ResumedAt past pc := by
    rw [poll_resumedAt, performAll_resumedAt, ← List.foldl_append]
    exact foldl_exempt_eq_some_iff past pc
  refine ⟨?_, ?_, ?_⟩
  · rw [permit_val, ← hpast]
    cases hs : d.state with
    | running => simpa using verdict_running hs hb
    | paused => simp [verdict, d, hs]
    | stepArmed => simp [verdict, d, hs]
  · intro hs hr
    obtain ⟨hv, hn⟩ := verdict_hit hs hb (fun e => hr (hpast.1 e))
    refine ⟨hv, ?_⟩
    rw [permit_notes, Note.pauses_append, hn]
  · intro hs between hbetween m' hs' hb'
    have hq : Spent (m'.poll pc).val := spent_poll (spent_performAll (spent_permit hs) between hbetween) pc
    rw [permit_val, (verdict_hit hs' hb' (by simp [hq.1])).1]

/-- a breakpoint hit, then a resume there: the breakpoint is passed, but a jump to itself hits it again -/
theorem resumed_breakpoint_passes_once :
    let m := (performAll [.setBreakpoint 0x300, .permit 0x300, .send .resume] fresh).val
    (m.poll 0x300).val.isBreakpoint 0x300 = true ∧ (m.permit 0x300).val.1 = true ∧
      ((m.permit 0x300).val.2.permit 0x300).val.1 = false := by
  intro m
  have hb : (m.poll 0x300).val.isBreakpoint 0x300 = true := by decide
  obtain ⟨hpass, -, honce⟩ :=
    permit_at_breakpoint [.setBreakpoint 0x300, .permit 0x300, .send .resume] 0x300 hb
  refine ⟨hb, hpass.2 (Or.inr ⟨by decide, ?_⟩), honce (by decide) [] (by simp) (by decide) (by decide)⟩
  exact ⟨[.asked 0x300 .running], .paused, [], by decide, by decide, by simp⟩

end Chip8.Monitor
