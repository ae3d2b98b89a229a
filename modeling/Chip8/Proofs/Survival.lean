/-
Turns and runs that end in failure. A fault that is the program's own is reported, and the turn in which it happened goes
on: the screen is shown if it changed, and the display is asked whether it is still there. Only trouble with a device
ends a run in failure: a poll, a wait for a key or a rendering that came back with an error (`DeviceFails`).

Results:
- `guardedStep_fatal_iff`: a step is fatal exactly when the device fails in a wait for a key that the monitor let run;
- `turn_after_fault`: after any other fault the rest of the turn follows, on the machine as the fault left it;
- `turn_failed_iff`: a turn fails exactly when a device does;
- `turns_eq_some_iff`: a run ends exactly when one of its turns does;
- `mainLoop_failed_iff`: the main loop fails exactly when one of its turns does.
-/
import Chip8.Proofs.Faults

namespace Chip8.Interpreter

variable {σ δ : Type}

/-! ## Taking a fault -/

/-- reporting a fault changes no machine and no device -/
theorem report_frame (s : Interpreter σ δ) (pc : UInt16) (f : Fault) :
    ∃ mon last, (s.report pc f).val = { s with monitor := mon, lastFault := last } := by
  unfold report
  split
  case isTrue => exact ⟨s.monitor, s.lastFault, rfl⟩
  case isFalse => exact ⟨_, _, rfl⟩

/-- taking a fault changes no machine and no device -/
theorem takeFault_frame (s : Interpreter σ δ) (pc : UInt16) (f : Fault) :
    ∃ mon last n, (s.takeFault pc f).val.1 = { s with monitor := mon, lastFault := last, faults := n } := by
  unfold takeFault
  split
  case isFalse => exact ⟨s.monitor, s.lastFault, s.faults, rfl⟩
  case isTrue =>
    obtain ⟨mon, last, hr⟩ := report_frame { s with faults := s.faults + 1 } pc f
    simp only [Noted.val_bind, hr]
    split
    case isTrue => exact ⟨_, last, s.faults + 1, rfl⟩
    case isFalse => exact ⟨mon, last, s.faults + 1, rfl⟩

/-- only a fault that ends the run is handed back -/
theorem takeFault_fatal (s : Interpreter σ δ) (pc : UInt16) (f : Fault) :
    (s.takeFault pc f).val.2 = if f.recoverable then none else some f := by
  unfold takeFault
  split
  case isFalse => rfl
  case isTrue =>
    simp only [Noted.val_bind]
    split
    case isTrue => rfl
    case isFalse => rfl

variable [Input σ]

/-! ## One step -/

/-- the monitor lets the cycle at the program counter run -/
def Permitted (s : Interpreter σ δ) : Prop :=
  (s.monitor.permit s.machine.pc).val.1 = true

/-- the interpreter with its monitor as it is after the question -/
def asked (s : Interpreter σ δ) : Interpreter σ δ :=
  { s with monitor := (s.monitor.permit s.machine.pc).val.2 }

theorem step_of_permitted {s : Interpreter σ δ} (h : s.Permitted) :
    s.step.val.2 = s.asked.cycle.val.2.elim (.ok true) .error := by
  unfold Permitted at h
  unfold step
  simp only [Noted.val_bind, h, if_true]
  split
  case h_1 hc =>
    have hnone : s.asked.cycle.val.2 = none := hc
    rw [hnone]
    rfl
  case h_2 f hc =>
    have hsome : s.asked.cycle.val.2 = some f := hc
    rw [hsome]
    rfl

theorem step_of_not_permitted {s : Interpreter σ δ} (h : ¬ s.Permitted) : s.step.val.2 = .ok false := by
  unfold Permitted at h
  unfold step
  simp only [Noted.val_bind, h]
  rfl

theorem step_error_iff (s : Interpreter σ δ) (f : Fault) :
    s.step.val.2 = .error f ↔ s.Permitted ∧ s.asked.cycle.val.2 = some f := by
  by_cases hp : s.Permitted
  · rw [step_of_permitted hp]
    cases s.asked.cycle.val.2 with
    | none => simp
    | some f' => simp [hp]
  · simp [step_of_not_permitted hp, hp]

theorem guardedStep_of_error {s : Interpreter σ δ} {f : Fault} (h : s.step.val.2 = .error f) :
    s.guardedStep = (s.step >>= fun r => r.1.takeFault s.machine.pc f) := by
  unfold guardedStep
  refine Noted.ext ?_ ?_
  · simp only [Noted.val_bind, h]
  · simp only [Noted.notes_bind, h]

/-- a wait for a key that the monitor lets run, on a device that fails -/
def AwaitFails (s : Interpreter σ δ) (why : String) : Prop :=
  s.Permitted ∧ (∃ x, s.Executes (.awaitKey x)) ∧ (Input.await s.input).result = .error why

/-- **Fatal steps.** A step is fatal exactly when the input device fails in a wait for a key. -/
theorem guardedStep_fatal_iff (s : Interpreter σ δ) (f : Fault) :
    s.guardedStep.val.2 = some f ↔ ∃ why, f = .io why ∧ s.AwaitFails why := by
  have hguard : s.guardedStep.val.2 = some f ↔ s.step.val.2 = .error f ∧ f.recoverable = false := by
    unfold guardedStep
    simp only [Noted.val_bind]
    cases s.step.val.2 with
    | ok ran => simp
    | error f' =>
      simp only [takeFault_fatal, Except.error.injEq]
      by_cases hr : f'.recoverable = true
      · rw [if_pos hr]
        refine ⟨fun h => absurd h (by simp), fun h => ?_⟩
        rw [h.1, h.2] at hr
        cases hr
      · rw [if_neg hr]
        refine ⟨fun h => ?_, fun h => by rw [h.1]⟩
        cases h
        exact ⟨rfl, Bool.eq_false_iff.2 hr⟩
  rw [hguard, step_error_iff]
  constructor
  · rintro ⟨⟨hp, hf⟩, hr⟩
    rcases cycle_fault s.asked f hf with h | ⟨x, why, hx, rfl, hwhy⟩
    · rw [Fault.recoverable_of_ofProgram h] at hr
      cases hr
    · exact ⟨why, rfl, hp, ⟨x, hx⟩, hwhy⟩
  · rintro ⟨why, rfl, hp, ⟨x, hx⟩, hwhy⟩
    exact ⟨⟨hp, cycle_fault_of_await (s := s.asked) hx hwhy⟩, rfl⟩

/-! ## One turn -/

variable [Display δ]

/-- the rest of a turn, after its step: the screen is shown if it changed, and the display is asked whether it is still
there -/
def restOfTurn (s : Interpreter σ δ) : Noted (Interpreter σ δ × Option Ending) := do
  let (s, failure) ← s.refresh
  match failure with
  | some why => pure (s, some (.failed (.io why)))
  | none =>
    if Display.alive s.display then pure (s, none)
    else do
      Noted.note .displayClosed
      pure (s, some .closed)

/-- a turn that the input lets happen is a step and, unless that was fatal, the rest -/
theorem turn_of_poll {s : Interpreter σ δ} (h : s.pollInput.2 = .ok true) :
    s.turn = (do
      let (t, fatal) ← s.pollInput.1.guardedStep
      match fatal with
      | some f => pure (t, some (.failed f))
      | none => t.restOfTurn) := by
  unfold turn
  simp only [h]
  rfl

/-- **After a fault.** When a step faults with something the program did wrong, the fault is taken and the rest of the
turn follows as after any other step. -/
theorem turn_after_fault {s : Interpreter σ δ} {f : Fault} (hpoll : s.pollInput.2 = .ok true)
    (hstep : s.pollInput.1.step.val.2 = .error f) (hf : f.ofProgram = true) :
    s.turn = (do
      let (t, _) ← s.pollInput.1.step
      let (t, _) ← t.takeFault s.pollInput.1.machine.pc f
      t.restOfTurn) := by
  have hfatal : ∀ t : Interpreter σ δ, (t.takeFault s.pollInput.1.machine.pc f).val.2 = none := fun t => by
    rw [takeFault_fatal, if_pos (Fault.recoverable_of_ofProgram hf)]
  rw [turn_of_poll hpoll, guardedStep_of_error hstep]
  refine Noted.ext ?_ ?_
  · simp only [Noted.val_bind, hfatal]
  · simp only [Noted.notes_bind, Noted.val_bind, hfatal, List.append_assoc]

omit [Input σ] in
theorem refresh_failure_iff (s : Interpreter σ δ) (why : String) :
    s.refresh.val.2 = some why ↔
      s.machine.redraw = true ∧ (Display.render s.display s.machine.screen).2 = some why := by
  unfold refresh Machine.takeRedraw
  by_cases hr : s.machine.redraw = true
  · simp only [hr, if_true, true_and]
    cases (Display.render s.display s.machine.screen).2 with
    | none => simp
    | some why' => simp
  · simp [hr]

omit [Input σ] in
/-- the rest of a turn fails exactly when the display does -/
theorem restOfTurn_failed_iff (s : Interpreter σ δ) (f : Fault) :
    s.restOfTurn.val.2 = some (.failed f) ↔ ∃ why, f = .io why ∧ s.machine.redraw = true ∧
      (Display.render s.display s.machine.screen).2 = some why := by
  have hrest : s.restOfTurn.val.2 = some (.failed f) ↔ ∃ why, f = .io why ∧ s.refresh.val.2 = some why := by
    unfold restOfTurn
    simp only [Noted.val_bind]
    cases s.refresh.val.2 with
    | some why => simp [eq_comm]
    | none =>
      split
      · simp_all
      · split <;> simp
  simp only [hrest, refresh_failure_iff]

/-- a call of a device comes back with an error in this turn -/
inductive DeviceFails (s : Interpreter σ δ) (why : String) : Prop
  | poll (answer : (Input.poll s.input s.machine.keypad).result = .error why)
  | await (answer : (Input.poll s.input s.machine.keypad).result = .ok true) (failed : s.pollInput.1.AwaitFails why)
  | render (answer : (Input.poll s.input s.machine.keypad).result = .ok true)
      (stepped : s.pollInput.1.guardedStep.val.2 = none)
      (changed : s.pollInput.1.guardedStep.val.1.machine.redraw = true)
      (failed : (Display.render s.pollInput.1.guardedStep.val.1.display
        s.pollInput.1.guardedStep.val.1.machine.screen).2 = some why)

theorem DeviceFails.turn_failed {s : Interpreter σ δ} {why : String} (h : s.DeviceFails why) :
    s.turn.val.2 = some (.failed (.io why)) := by
  cases h with
  | poll answer =>
    have hpoll : s.pollInput.2 = .error why := answer
    unfold turn
    simp only [hpoll, Noted.val_pure]
  | await answer failed =>
    have hfatal := (guardedStep_fatal_iff s.pollInput.1 (.io why)).2 ⟨why, rfl, failed⟩
    rw [turn_of_poll answer]
    simp only [Noted.val_bind, hfatal, Noted.val_pure]
  | render answer stepped changed failed =>
    have hrest := (restOfTurn_failed_iff s.pollInput.1.guardedStep.val.1 (.io why)).2 ⟨why, rfl, changed, failed⟩
    rw [turn_of_poll answer]
    simp only [Noted.val_bind, stepped, hrest]

theorem deviceFails_of_turn_failed {s : Interpreter σ δ} {f : Fault} (h : s.turn.val.2 = some (.failed f)) :
    ∃ why, f = .io why ∧ s.DeviceFails why := by
  cases hpoll : s.pollInput.2 with
  | error why =>
    unfold turn at h
    simp only [hpoll, Noted.val_pure] at h
    cases h
    exact ⟨why, rfl, .poll hpoll⟩
  | ok carryOn =>
    cases carryOn with
    | false =>
      unfold turn at h
      simp only [hpoll, Noted.val_bind, Noted.val_pure] at h
      cases h
    | true =>
      rw [turn_of_poll hpoll] at h
      cases hfatal : s.pollInput.1.guardedStep.val.2 with
      | some f' =>
        simp only [Noted.val_bind, hfatal, Noted.val_pure] at h
        cases h
        obtain ⟨why, rfl, failed⟩ := (guardedStep_fatal_iff s.pollInput.1 f).1 hfatal
        exact ⟨why, rfl, .await hpoll failed⟩
      | none =>
        simp only [Noted.val_bind, hfatal] at h
        obtain ⟨why, rfl, changed, failed⟩ := (restOfTurn_failed_iff s.pollInput.1.guardedStep.val.1 f).1 h
        exact ⟨why, rfl, .render hpoll hfatal changed failed⟩

/-- **Turns that fail.** A turn ends the run in failure exactly when a call of a device failed in it, and it hands on
what the device said. -/
theorem turn_failed_iff (s : Interpreter σ δ) (f : Fault) :
    s.turn.val.2 = some (.failed f) ↔ ∃ why, f = .io why ∧ s.DeviceFails why := by
  constructor
  · exact deviceFails_of_turn_failed
  · rintro ⟨why, rfl, h⟩
    exact h.turn_failed

/-! ## Runs -/

theorem turns_succ_of_none {s t : Interpreter σ δ} (h : s.turn.val = (t, none)) (n : Nat) :
    (turns (n + 1) s).val = (turns n t).val := by
  simp only [turns, Noted.val_bind, h]

theorem turns_succ_of_some {s t : Interpreter σ δ} {e : Ending} (h : s.turn.val = (t, some e)) (n : Nat) :
    (turns (n + 1) s).val = (t, some e) := by
  simp only [turns, Noted.val_bind, h, Noted.val_pure]

/-- one more turn at the end -/
theorem turns_succ_last {n : Nat} {s t : Interpreter σ δ} (h : (turns n s).val = (t, none)) :
    (turns (n + 1) s).val = t.turn.val := by
  induction n generalizing s with
  | zero =>
    obtain rfl : s = t := congrArg Prod.fst h
    obtain ⟨u, ending, hturn⟩ : ∃ u ending, s.turn.val = (u, ending) := ⟨_, _, rfl⟩
    cases ending with
    | some e => rw [turns_succ_of_some hturn, hturn]
    | none =>
      rw [turns_succ_of_none hturn, hturn]
      rfl
  | succ n ih =>
    obtain ⟨u, ending, hturn⟩ : ∃ u ending, s.turn.val = (u, ending) := ⟨_, _, rfl⟩
    cases ending with
    | some e =>
      rw [turns_succ_of_some hturn] at h
      cases h
    | none =>
      rw [turns_succ_of_none hturn] at h ⊢
      exact ih h

/-- **Runs that end.** A run ends within `k` turns exactly when, after fewer turns that all went on, comes one that
ends it. -/
theorem turns_eq_some_iff (k : Nat) (s u : Interpreter σ δ) (e : Ending) :
    (turns k s).val = (u, some e) ↔ ∃ n t, n < k ∧ (turns n s).val = (t, none) ∧ t.turn.val = (u, some e) := by
  induction k generalizing s with
  | zero =>
    constructor
    · intro h
      cases h
    · rintro ⟨n, t, hn, -⟩
      omega
  | succ k ih =>
    obtain ⟨t₁, ending, hturn⟩ : ∃ t₁ ending, s.turn.val = (t₁, ending) := ⟨_, _, rfl⟩
    cases ending with
    | some e' =>
      rw [turns_succ_of_some hturn]
      constructor
      · intro h
        exact ⟨0, s, Nat.succ_pos k, rfl, hturn.trans h⟩
      · rintro ⟨n, t, -, hn, ht⟩
        cases n with
        | zero =>
          cases hn
          exact hturn.symm.trans ht
        | succ n =>
          rw [turns_succ_of_some hturn] at hn
          cases hn
    | none =>
      rw [turns_succ_of_none hturn, ih]
      constructor
      · rintro ⟨n, t, hlt, hn, ht⟩
        exact ⟨n + 1, t, Nat.succ_lt_succ hlt, (turns_succ_of_none hturn n).trans hn, ht⟩
      · rintro ⟨n, t, hlt, hn, ht⟩
        cases n with
        | zero =>
          cases hn
          rw [hturn] at ht
          cases ht
        | succ n => exact ⟨n, t, Nat.lt_of_succ_lt_succ hlt, (turns_succ_of_none hturn n).symm.trans hn, ht⟩

/-- a run of turns without an end has come to the limit -/
theorem mainLoop_val (s : Interpreter σ δ) :
    s.mainLoop.val = ((turns s.limit s).val.1, (turns s.limit s).val.2.getD .limit) := by
  unfold mainLoop
  simp only [Noted.val_bind]
  cases (turns s.limit s).val.2 with
  | some e => rfl
  | none => rfl

/-- the main loop fails exactly when one of its turns does -/
theorem mainLoop_failed_iff (s : Interpreter σ δ) (f : Fault) :
    s.mainLoop.val.2 = .failed f ↔
      ∃ n t, n < s.limit ∧ (turns n s).val = (t, none) ∧ t.turn.val.2 = some (.failed f) := by
  have hloop : s.mainLoop.val.2 = .failed f ↔ ∃ u, (turns s.limit s).val = (u, some (.failed f)) := by
    rw [mainLoop_val]
    obtain ⟨u, ending, hrun⟩ : ∃ u ending, (turns s.limit s).val = (u, ending) := ⟨_, _, rfl⟩
    rw [hrun]
    cases ending with
    | some e => simp
    | none => simp
  rw [hloop]
  constructor
  · rintro ⟨u, hu⟩
    obtain ⟨n, t, hlt, hn, ht⟩ := (turns_eq_some_iff s.limit s u _).1 hu
    exact ⟨n, t, hlt, hn, congrArg Prod.snd ht⟩
  · rintro ⟨n, t, hlt, hn, ht⟩
    exact ⟨t.turn.val.1, (turns_eq_some_iff s.limit s _ _).2 ⟨n, t, hlt, hn, Prod.ext rfl ht⟩⟩

end Chip8.Interpreter
