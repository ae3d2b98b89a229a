/-
Debugging a program does not change it. The monitor decides when a cycle runs and never what it does: whatever commands
a debugger sends between steps, and whichever steps are refused, the program is as if the cycles that were let through
had been run one after the other without a monitor. Timers that count would see the time that a pause takes, so they are
disabled here (`Still`).

What the program is, is its machine, its input device and its count of cycles (`program`). Monitor, display and the
record of faults are not in it, and no cycle asks them (`cycle_congr`).

Results:
- `still_create`: settings under which the timers are disabled;
- `still_cycle`: disabled timers stay disabled, and then no tick of the clock changes the machine;
- `step_permitted`, `step_refused`: what a step does to the program;
- `debugger_is_transparent`: a debugged run and the cycles on their own.
-/
import Mathlib.Logic.Function.Iterate
import Chip8.Proofs.Footprint
import Chip8.Proofs.Interpreter.SingleStep
import Chip8.Proofs.Timer.History

namespace Chip8

/-! ## Disabled timers -/

namespace Countdown

/-- a timer that is plain storage: disabled, and nothing of a count is left -/
structure Still (t : Countdown) : Prop where
  disabled : t.disabled = true
  task : t.task = none

theorem still_disable (t : Countdown) : t.disable.val.Still := by
  rw [disable_val]
  exact ⟨rfl, rfl⟩

variable {t : Countdown}

theorem Still.set (h : t.Still) (value : UInt8) : (t.set value).val.Still := by
  rw [set_val, if_pos h.disabled]
  exact ⟨h.disabled, rfl⟩

theorem Still.ticks (h : t.Still) (n : Nat) : (t.ticks n).val = t := by
  have htick : t.tick.val = t := by
    rw [tick_val, if_neg]
    simp [running, h.task]
  induction n with
  | zero => rfl
  | succ n ih => rw [Countdown.ticks, Noted.val_bind, htick, ih]

end Countdown

namespace Machine

/-- both timers are plain storage -/
structure Still (m : Machine) : Prop where
  delay : m.timers.delay.Still
  sound : m.timers.sound.Still

theorem Still.ticks {m : Machine} (h : m.Still) (n : Nat) : (m.ticks n).val = m := by
  simp only [Machine.ticks, Timers.ticks, Noted.val_bind, Noted.val_pure, h.delay.ticks, h.sound.ticks]

/-- timers are set by two instructions, and disabled ones stay disabled then -/
theorem Still.execute {σ : Type} [Input σ] {m : Machine} (h : m.Still) (ins : Instruction) (dev : σ) :
    (execute ins m dev).val.machine.Still := by
  by_cases htimer : ∃ x, ins = .setDelay x ∨ ins = .setSound x
  · rcases htimer with ⟨x, rfl | rfl⟩
    · exact ⟨h.delay.set _, h.sound⟩
    · exact ⟨h.delay, h.sound.set _⟩
  · have hdelay : Piece.Same m dev _ _ .delay :=
      execute_same ins m dev fun hmem => htimer (timer_mem_footprint (.inl hmem))
    have hsound : Piece.Same m dev _ _ .sound :=
      execute_same ins m dev fun hmem => htimer (timer_mem_footprint (.inr hmem))
    exact ⟨Eq.symm hdelay ▸ h.delay, Eq.symm hsound ▸ h.sound⟩

end Machine

namespace Interpreter

variable {σ δ : Type}

/-- settings that disable both timers -/
theorem still_create (m : Machine) (mon : Monitor) (input : σ) (display : δ) {config : Config}
    (hdelay : config.disableDelay = true) (hsound : config.disableSound = true) :
    (create m mon input display config).val.machine.Still := by
  simp only [create, configure, hdelay, hsound, if_true, Machine.disableDelay, Machine.disableSound, Noted.val_bind,
    Noted.val_pure]
  exact ⟨Countdown.still_disable _, Countdown.still_disable _⟩

/-! ## Programs -/

/-- what a program makes as it runs -/
def program (s : Interpreter σ δ) : Machine × σ × Nat :=
  (s.machine, s.input, s.cycles)

variable [Input σ]

/-- **What a cycle asks.** Where the programs are the same, so are the cycles: what they make of the program, and the
fault they end in. -/
theorem cycle_congr {s t : Interpreter σ δ} (h : s.program = t.program) :
    s.cycle.val.1.program = t.cycle.val.1.program ∧ s.cycle.val.2 = t.cycle.val.2 := by
  obtain ⟨machine, mon, input, display, config, cycles, faults, last⟩ := s
  obtain ⟨machine', mon', input', display', config', cycles', faults', last'⟩ := t
  cases h
  unfold cycle
  cases machine.fetch with
  | error f => exact ⟨rfl, rfl⟩
  | ok fetched =>
    obtain ⟨opcode, fetched⟩ := fetched
    cases hd : Instruction.decode opcode with
    | none =>
      simp only [hd]
      exact ⟨rfl, rfl⟩
    | some ins =>
      simp only [hd]
      exact ⟨rfl, rfl⟩

theorem still_cycle {s : Interpreter σ δ} (h : s.machine.Still) : s.cycle.val.1.machine.Still := by
  rcases cycle_cases s with ⟨f, -, hc⟩ | ⟨opcode, -, -, hc⟩ | ⟨opcode, ins, -, -, hc⟩
  · rw [hc]
    exact h
  · rw [hc]
    exact ⟨h.delay, h.sound⟩
  · rw [hc]
    have hskip : s.machine.skip.Still := ⟨h.delay, h.sound⟩
    exact hskip.execute ins s.input

/-- the interpreter after cycles on their own, whether they fail or not -/
def freeRun (n : Nat) (s : Interpreter σ δ) : Interpreter σ δ :=
  (fun t => t.cycle.val.1)^[n] s

theorem freeRun_succ (n : Nat) (s : Interpreter σ δ) : freeRun (n + 1) s = freeRun n s.cycle.val.1 :=
  Function.iterate_succ_apply _ n s

theorem freeRun_congr {s t : Interpreter σ δ} (h : s.program = t.program) (n : Nat) :
    (freeRun n s).program = (freeRun n t).program := by
  induction n generalizing s t with
  | zero => exact h
  | succ n ih =>
    rw [freeRun_succ, freeRun_succ]
    exact ih (cycle_congr h).1

/-! ## Steps -/

/-- a step that the monitor lets through is a cycle -/
theorem step_permitted {s : Interpreter σ δ} (h : s.Permitted) :
    s.step.val.1.program = s.cycle.val.1.program ∧ s.step.val.2 = s.cycle.val.2.elim (.ok true) .error := by
  have hasked : s.asked.program = s.program := rfl
  obtain ⟨hprogram, hfault⟩ := cycle_congr hasked
  rw [step_val_of_permitted h, step_of_permitted h, hfault]
  exact ⟨hprogram, rfl⟩

/-- a step that the monitor refuses does nothing to the program -/
theorem step_refused {s : Interpreter σ δ} (h : ¬ s.Permitted) :
    s.step.val.1.program = s.program ∧ s.step.val.2 = .ok false := by
  rw [step_val_of_not_permitted h, step_of_not_permitted h]
  exact ⟨rfl, rfl⟩

theorem step_eq_ok_false_iff (s : Interpreter σ δ) : s.step.val.2 = .ok false ↔ ¬ s.Permitted := by
  constructor
  · intro hfalse hp
    rw [(step_permitted hp).2] at hfalse
    cases hf : s.cycle.val.2 with
    | none => simp [hf] at hfalse
    | some f => simp [hf] at hfalse
  · exact fun h => (step_refused h).2

/-! ## Debugged runs -/

/-- ticks of the clock, as many as given -/
def Action.ticks (n : Nat) : Action σ δ :=
  .world fun m dev d => ((m.ticks n).val, dev, d)

/-- what happens around a machine that is debugged step by step: commands, steps, a subscriber, and time -/
inductive Action.Debugging : Action σ δ → Prop
  | send (cmd : Command) : Debugging (.send cmd)
  | step : Debugging .step
  | ticks (n : Nat) : Debugging (.ticks n)
  | subscribe : Debugging .subscribe
  | unsubscribe : Debugging .unsubscribe
  | receive : Debugging .receive

/-- how many steps the monitor lets through -/
def stepsPermitted [Display δ] (as : List (Action σ δ)) (s : Interpreter σ δ) : Nat :=
  (questions as s).countP fun t => t.Permitted

section
variable [Display δ]

/-- what an action of a debugger does: it is a step that is let through, or it leaves the program as it is -/
theorem perform_debugging {a : Action σ δ} (ha : a.Debugging) {s : Interpreter σ δ} (h : s.machine.Still) :
    (s.question a).toList.countP (fun t => t.Permitted) = 1 ∧ (s.perform a).val.program = s.cycle.val.1.program ∨
    (s.question a).toList.countP (fun t => t.Permitted) = 0 ∧ (s.perform a).val.program = s.program := by
  cases ha with
  | step =>
    by_cases hp : s.Permitted
    · exact .inl ⟨by simp [question, hp], (step_permitted hp).1⟩
    · exact .inr ⟨by simp [question, hp], (step_refused hp).1⟩
  | ticks n =>
    refine .inr ⟨rfl, ?_⟩
    show ((s.machine.ticks n).val, s.input, s.cycles) = s.program
    rw [h.ticks]
    rfl
  | _ => exact .inr ⟨rfl, rfl⟩

/-- **Simulation.** A debugged run makes of the program what the cycles make of it that were let through. -/
theorem performAll_debugging {as : List (Action σ δ)} (has : ∀ a ∈ as, a.Debugging) {s : Interpreter σ δ}
    (h : s.machine.Still) : (performAll as s).val.program = (freeRun (stepsPermitted as s) s).program := by
  induction as generalizing s with
  | nil => rfl
  | cons a as ih =>
    rw [List.forall_mem_cons] at has
    obtain ⟨ha, has⟩ := has
    simp only [performAll, Noted.val_bind, stepsPermitted, questions, List.countP_append]
    rcases perform_debugging ha h with ⟨hone, hprogram⟩ | ⟨hnone, hprogram⟩
    · have hmachine : (s.perform a).val.machine = s.cycle.val.1.machine := congrArg Prod.fst hprogram
      have hstill : (s.perform a).val.machine.Still := hmachine ▸ still_cycle h
      rw [hone, Nat.add_comm, freeRun_succ, ← freeRun_congr hprogram]
      exact ih has hstill
    · have hmachine : (s.perform a).val.machine = s.machine := congrArg Prod.fst hprogram
      have hstill : (s.perform a).val.machine.Still := hmachine ▸ h
      rw [hnone, Nat.zero_add, ← freeRun_congr hprogram]
      exact ih has hstill

/-- **The debugger is transparent.** Take any interpreter with its timers disabled, whatever its breakpoints and the
commands that wait, and commands and steps in any order, with time passing and a subscriber coming and going. Machine,
input device and count of cycles are in the end as after `k` cycles on their own, where `k` steps were let through. And
each step on the way, with the cycles on their own as far as it: when it is refused, and only then, it says so, and it
changes none of the three; when it is let through, it does what the next of the cycles does and ends as that one ends,
well or in the same fault. -/
theorem debugger_is_transparent (s : Interpreter σ δ) (hstill : s.machine.Still) (as : List (Action σ δ))
    (hdebug : ∀ a ∈ as, a.Debugging) :
    (performAll as s).val.program = (freeRun (stepsPermitted as s) s).program ∧
    ∀ before after, as = before ++ .step :: after →
      let t := (performAll before s).val
      let next := (freeRun (stepsPermitted before s) s).cycle.val
      (t.step.val.2 = .ok false ↔ ¬ t.Permitted) ∧
      (t.step.val.2 = .ok false → t.step.val.1.program = t.program) ∧
      (t.Permitted → t.step.val.1.program = next.1.program ∧ t.step.val.2 = next.2.elim (.ok true) .error) := by
  refine ⟨performAll_debugging hdebug hstill, ?_⟩
  intro before after has t next
  rw [has, List.forall_mem_append] at hdebug
  obtain ⟨hbefore, -⟩ := hdebug
  have ht : t.program = (freeRun (stepsPermitted before s) s).program := performAll_debugging hbefore hstill
  obtain ⟨hprogram, hfault⟩ := cycle_congr ht
  refine ⟨step_eq_ok_false_iff t, ?_, ?_⟩
  · intro hrefused
    exact (step_refused ((step_eq_ok_false_iff t).1 hrefused)).1
  · intro hp
    obtain ⟨hstep, hresult⟩ := step_permitted hp
    exact ⟨hstep.trans hprogram, by rw [hresult, hfault]⟩

/-- LD V0, 5; an opcode that is no instruction; LD V1, K, which goes back when there is no key -/
def threeOpcodes : Machine :=
  { Machine.fresh (.onSpeaker .mute) (.ofSeed 0) with
    memory := ⟨Memory.place Memory.fresh.bytes 0x200 [0x60, 0x05, 0xFF, 0xFF, 0xF1, 0x0A]⟩ }

/-- both timers disabled -/
def timeless : Config :=
  { Config.default with disableDelay := true, disableSound := true }

/-- to a breakpoint, over it by a single step, and on to the wait for a key, twice -/
def debugged : List (Action HeldKeys FrameCounter) :=
  [.send (.setBreakpoint 0x202), .step, .step, .ticks 3, .send .step, .step, .step, .send .resume, .step, .step]

/-- six steps, of which four are let through; the third of the six is the one that faults -/
theorem debugged_as_four_cycles :
    let start := (create threeOpcodes .fresh (HeldKeys.ofKeys [] []) FrameCounter.steady timeless).val
    let t := (performAll (debugged.take 5) start).val
    start.machine.Still ∧ (∀ a ∈ debugged, a.Debugging) ∧
      (performAll debugged start).val.program = (freeRun 4 start).program ∧
      (freeRun 4 start).machine.pc = 0x204 ∧
      t.Permitted ∧ t.step.val.2 = .error (.invalidOpcode 0xFFFF 0x202) := by
  intro start t
  have hstill : start.machine.Still := still_create threeOpcodes _ _ _ rfl rfl
  have hdebug : ∀ a ∈ debugged, a.Debugging := by
    intro a ha
    simp only [debugged, List.mem_cons, List.not_mem_nil, or_false] at ha
    rcases ha with rfl | rfl | rfl | rfl | rfl | rfl | rfl | rfl | rfl | rfl <;> constructor
  -- one evaluation of the run for all that is read off it
  obtain ⟨hfour, hone, hpermitted, hfault, hpc⟩ : stepsPermitted debugged start = 4 ∧
      stepsPermitted (debugged.take 5) start = 1 ∧ t.Permitted ∧
      (freeRun 1 start).cycle.val.2 = some (.invalidOpcode 0xFFFF 0x202) ∧ (freeRun 4 start).machine.pc = 0x204 := by
    decide +kernel
  obtain ⟨hend, hsteps⟩ := debugger_is_transparent start hstill debugged hdebug
  obtain ⟨-, -, hlet⟩ := hsteps (debugged.take 5) (debugged.drop 6) rfl
  obtain ⟨-, hresult⟩ := hlet hpermitted
  refine ⟨hstill, hdebug, ?_, hpc, hpermitted, ?_⟩
  · rw [hend, hfour]
  · rw [hresult, hone, hfault]
    rfl

end

end Interpreter

end Chip8
