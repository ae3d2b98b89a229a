/-
Main loops that stop at a limit and are called again. A main loop keeps nothing of its own but the count of its turns:
all that bears on later turns (a screen that waits to be shown, a resume that is not used up, the last fault) is in the
interpreter. And no turn reads the settings, so the limit says when to stop and not what is done. Two loops, the first
of which came to its limit, are therefore one loop with both limits together.

How often an input device is polled is on nobody's record, so there is a device that counts (`Metered`). It answers as
the device inside, and turns see nothing of a device but its answers (`turn_onto`): the loop goes the same way with it.

Results:
- `turn_onto`: turns see the answers of their device, and nothing of the settings;
- `turn_program`: a turn is a poll and at most one cycle;
- `turns_add`: turns in a row, cut in two;
- `limited_loop_resumes`: turns, polls and cycles of a limited main loop, and the loop that follows it.
-/
import Chip8.Proofs.Interpreter.Frames
import Chip8.Proofs.Interpreter.KeyWait
import Chip8.Proofs.Interpreter.Transparency

namespace Chip8

/-! ## Devices that answer alike -/

section
variable {σ τ : Type}

/-- the same answer, from another device -/
def Polled.onto (f : σ → τ) (polled : Polled σ) : Polled τ :=
  ⟨f polled.device, polled.keypad, polled.commands, polled.result⟩

/-- the same key, from another device -/
def Awaited.onto (f : σ → τ) (waited : Awaited σ) : Awaited τ :=
  ⟨f waited.device, waited.result⟩

/-- the same outcome, with another device -/
def Outcome.onto (f : σ → τ) (out : Outcome σ) : Outcome τ :=
  ⟨out.machine, f out.input, out.fault⟩

variable [Input σ] [Input τ]

/-- a device and the one that `f` makes of it give the same answers, for good -/
structure Input.Alike (f : σ → τ) : Prop where
  poll : ∀ dev pad, Input.poll (f dev) pad = (Input.poll dev pad).onto f
  await : ∀ dev, Input.await (f dev) = (Input.await dev).onto f

omit [Input τ] in
theorem Input.alike_id : Input.Alike (id : σ → σ) :=
  ⟨fun _ _ => rfl, fun _ => rfl⟩

/-- an instruction sees nothing of the device but what it answers -/
theorem execute_onto {f : σ → τ} (h : Input.Alike f) (ins : Instruction) (m : Machine) (dev : σ) :
    execute ins m (f dev) = Outcome.onto f <$> execute ins m dev := by
  cases ins with
  | awaitKey x =>
    simp only [execute, awaitKey, h.await, Awaited.onto]
    rcases (Input.await dev).result with why | _ | key
    · rfl
    · rfl
    · dsimp only
      split <;> rfl
  | setDelay x =>
    simp only [execute, Functor.map_map]
    rfl
  | setSound x =>
    simp only [execute, Functor.map_map]
    rfl
  | _ => rfl

end

/-- a device with a count of how often it was polled -/
structure Metered (σ : Type) where
  device : σ
  polls : Nat

namespace Metered

variable {σ : Type} [Input σ]

instance : Input (Metered σ) where
  poll dev pad :=
    let polled := Input.poll dev.device pad
    ⟨⟨polled.device, dev.polls + 1⟩, polled.keypad, polled.commands, polled.result⟩
  await dev :=
    let waited := Input.await dev.device
    ⟨⟨waited.device, dev.polls⟩, waited.result⟩

/-- the count does not show in the answers -/
theorem alike : Input.Alike (device : Metered σ → σ) :=
  ⟨fun _ _ => rfl, fun _ => rfl⟩

/-- a wait for a key is no poll -/
theorem polls_execute (ins : Instruction) (m : Machine) (dev : Metered σ) :
    (execute ins m dev).val.input.polls = dev.polls := by
  cases ins with
  | awaitKey x =>
    simp only [execute, awaitKey]
    rcases (Input.await dev).result with why | _ | key
    · rfl
    · rfl
    · dsimp only
      split <;> rfl
  | _ => rfl

end Metered

namespace Interpreter

variable {σ τ δ : Type}

/-- the interpreter with what `f` makes of its device, and with other settings -/
def onto (f : σ → τ) (config : Config) (s : Interpreter σ δ) : Interpreter τ δ :=
  ⟨s.machine, s.monitor, f s.input, s.display, config, s.cycles, s.faults, s.lastFault⟩

/-! ## Turns with another device -/

section
variable {f : σ → τ} {config : Config}

theorem report_onto (s : Interpreter σ δ) (pc : UInt16) (fault : Fault) :
    (s.onto f config).report pc fault = onto f config <$> s.report pc fault := by
  have hrepeat : (s.onto f config).isRepeat pc fault = s.isRepeat pc fault := rfl
  have hmonitor : (s.onto f config).monitor = s.monitor := rfl
  simp only [report, hrepeat]
  split
  · rfl
  · simp only [map_bind, hmonitor]
    rfl

theorem takeFault_onto (s : Interpreter σ δ) (pc : UInt16) (fault : Fault) :
    (s.onto f config).takeFault pc fault = Prod.map (onto f config) id <$> s.takeFault pc fault := by
  have hfaults : (s.onto f config).faults = s.faults := rfl
  have hreport : ({ s.onto f config with faults := s.faults + 1 } : Interpreter τ δ).report pc fault =
      onto f config <$> { s with faults := s.faults + 1 }.report pc fault :=
    report_onto { s with faults := s.faults + 1 } pc fault
  unfold takeFault
  split
  · rw [hfaults, hreport, bind_map_left, map_bind]
    apply bind_congr
    intro t
    have hmachine : (t.onto f config).machine = t.machine := rfl
    rw [hmachine]
    split
    · simp only [map_bind]
      rfl
    · rfl
  · rfl

theorem restOfTurn_onto [Display δ] (s : Interpreter σ δ) :
    (s.onto f config).restOfTurn = Prod.map (onto f config) id <$> s.restOfTurn := by
  have hrefresh : (s.onto f config).refresh = Prod.map (onto f config) id <$> s.refresh := by
    have hmachine : (s.onto f config).machine = s.machine := rfl
    have hdisplay : (s.onto f config).display = s.display := rfl
    simp only [refresh, hmachine, hdisplay]
    split
    · cases (Display.render s.display s.machine.takeRedraw.2.screen).2 <;> rfl
    · rfl
  simp only [restOfTurn, hrefresh, bind_map_left, map_bind]
  apply bind_congr
  intro shown
  have hdisplay : (shown.1.onto f config).display = shown.1.display := rfl
  dsimp only [Prod.map, id_eq]
  cases shown.2 with
  | some why => rfl
  | none =>
    simp only [hdisplay]
    split <;> rfl

variable [Input σ] [Input τ]

theorem cycle_onto (h : Input.Alike f) (s : Interpreter σ δ) :
    (s.onto f config).cycle = Prod.map (onto f config) id <$> s.cycle := by
  have hmachine : (s.onto f config).machine = s.machine := rfl
  have hinput : (s.onto f config).input = f s.input := rfl
  simp only [cycle]
  rw [hmachine]
  cases s.machine.fetch with
  | error fault => rfl
  | ok fetched =>
    dsimp only
    cases Instruction.decode fetched.1 with
    | none => rfl
    | some ins =>
      simp only [hinput, execute_onto h, map_bind, bind_map_left]
      rfl

theorem step_onto (h : Input.Alike f) (s : Interpreter σ δ) :
    (s.onto f config).step = Prod.map (onto f config) id <$> s.step := by
  simp only [step, map_bind]
  apply bind_congr
  intro asked
  have hcycle : ({ s.onto f config with monitor := asked.2 } : Interpreter τ δ).cycle =
      Prod.map (onto f config) id <$> { s with monitor := asked.2 }.cycle := cycle_onto h { s with monitor := asked.2 }
  split
  · rw [hcycle, bind_map_left, map_bind]
    apply bind_congr
    intro ran
    dsimp only [Prod.map, id_eq]
    cases ran.2 <;> rfl
  · rfl

theorem guardedStep_onto (h : Input.Alike f) (s : Interpreter σ δ) :
    (s.onto f config).guardedStep = Prod.map (onto f config) id <$> s.guardedStep := by
  simp only [guardedStep, step_onto h, bind_map_left, map_bind]
  apply bind_congr
  intro stepped
  dsimp only [Prod.map, id_eq]
  cases stepped.2 with
  | ok ran => rfl
  | error fault => exact takeFault_onto stepped.1 _ fault

theorem pollInput_onto (h : Input.Alike f) (s : Interpreter σ δ) :
    (s.onto f config).pollInput = Prod.map (onto f config) id s.pollInput := by
  have hmachine : (s.onto f config).machine = s.machine := rfl
  have hinput : (s.onto f config).input = f s.input := rfl
  rw [pollInput, hmachine, hinput, h.poll]
  rfl

variable [Display δ]

/-- **One turn.** It goes the same way with any device that answers the same, under any settings. -/
theorem turn_onto (h : Input.Alike f) (s : Interpreter σ δ) :
    (s.onto f config).turn = Prod.map (onto f config) id <$> s.turn := by
  have hpoll : (s.onto f config).pollInput = Prod.map (onto f config) id s.pollInput := pollInput_onto h s
  rcases hanswer : s.pollInput.2 with why | _ | _
  · unfold turn
    simp only [hpoll, hanswer, Prod.map, id_eq]
    rfl
  · unfold turn
    simp only [hpoll, hanswer, Prod.map, id_eq]
    rfl
  · have hanswer' : (s.onto f config).pollInput.2 = .ok true := by
      rw [hpoll]
      exact hanswer
    rw [turn_of_poll hanswer, turn_of_poll hanswer', hpoll]
    simp only [Prod.map, guardedStep_onto h, bind_map_left, map_bind]
    apply bind_congr
    intro stepped
    dsimp only [id_eq]
    cases stepped.2 with
    | some fault => rfl
    | none => exact restOfTurn_onto stepped.1

theorem turns_onto (h : Input.Alike f) (n : Nat) (s : Interpreter σ δ) :
    turns n (s.onto f config) = Prod.map (onto f config) id <$> turns n s := by
  induction n generalizing s with
  | zero => rfl
  | succ n ih =>
    simp only [turns, turn_onto h, bind_map_left, map_bind]
    apply bind_congr
    intro turned
    dsimp only [Prod.map, id_eq]
    cases turned.2 with
    | some ending => rfl
    | none => exact ih turned.1

theorem turnsMade_onto (h : Input.Alike f) (n : Nat) (s : Interpreter σ δ) :
    turnsMade n (s.onto f config) = turnsMade n s := by
  induction n generalizing s with
  | zero => rfl
  | succ n ih =>
    have hturn : (s.onto f config).turn.val = Prod.map (onto f config) id s.turn.val := by
      rw [turn_onto h, Noted.val_map]
    obtain ⟨t, ending, ht⟩ : ∃ t ending, s.turn.val = (t, ending) := ⟨_, _, rfl⟩
    rw [ht] at hturn
    cases ending with
    | some ending => simp only [turnsMade, ht, hturn, Prod.map, id_eq]
    | none => simp only [turnsMade, ht, hturn, Prod.map, id_eq, ih t]

end

variable [Input σ]

/-! ## What a turn does -/

theorem cycle_cycles_le (s : Interpreter σ δ) : s.cycle.val.1.cycles ≤ s.cycles + 1 := by
  rcases cycle_cases s with ⟨f, -, hc⟩ | ⟨opcode, -, -, hc⟩ | ⟨opcode, ins, -, -, hc⟩
  · simp [hc]
  · simp [hc]
  · simp [hc]

theorem freeRun_cycles_le (k : Nat) (s : Interpreter σ δ) : (freeRun k s).cycles ≤ s.cycles + k := by
  induction k generalizing s with
  | zero => exact Nat.le_refl s.cycles
  | succ k ih =>
    have hfirst := cycle_cycles_le s
    have hrest := ih s.cycle.val.1
    rw [freeRun_succ]
    omega

theorem polls_step (d : Interpreter (Metered σ) δ) : d.step.val.1.input.polls = d.input.polls := by
  by_cases hp : d.Permitted
  · rw [step_val_of_permitted hp]
    rcases cycle_cases d.asked with ⟨f, -, hc⟩ | ⟨opcode, -, -, hc⟩ | ⟨opcode, ins, -, -, hc⟩
    · rw [hc]
      rfl
    · rw [hc]
      rfl
    · rw [hc]
      exact Metered.polls_execute ins d.asked.machine.skip d.input
  · rw [step_val_of_not_permitted hp]
    rfl

/-- taking the fault of a step does nothing to the program -/
theorem guardedStep_program (s : Interpreter σ δ) : s.guardedStep.val.1.program = s.step.val.1.program := by
  cases hstep : s.step.val.2 with
  | ok ran => rw [(guardedStep_of_ok hstep).1]
  | error fault =>
    obtain ⟨mon, last, n, htaken⟩ := takeFault_frame s.step.val.1 s.machine.pc fault
    rw [guardedStep_of_error hstep, Noted.val_bind, htaken]
    rfl

variable [Display δ]

/-- **The program in a turn.** After the poll at most one cycle runs, and then nothing of the program changes but that
the screen no longer waits to be shown. -/
theorem turn_program (s : Interpreter σ δ) : ∃ k ≤ 1, ∃ redraw,
    s.turn.val.1.program =
      Prod.map (fun m : Machine => { m with redraw := redraw }) id (freeRun k s.pollInput.1).program := by
  by_cases hpoll : s.pollInput.2 = .ok true
  · obtain ⟨redraw, display, -, hturn, -⟩ := turn_of_question hpoll
    have hprogram : s.turn.val.1.program =
        Prod.map (fun m : Machine => { m with redraw := redraw }) id s.pollInput.1.step.val.1.program := by
      rw [hturn, ← guardedStep_program]
      rfl
    rw [hprogram]
    by_cases hp : s.pollInput.1.Permitted
    · refine ⟨1, Nat.le_refl 1, redraw, ?_⟩
      rw [(step_permitted hp).1]
      rfl
    · refine ⟨0, Nat.zero_le 1, redraw, ?_⟩
      rw [(step_refused hp).1]
      rfl
  · rw [(turn_of_no_question hpoll).1]
    exact ⟨0, Nat.zero_le 1, s.pollInput.1.machine.redraw, rfl⟩

theorem turn_cycles_le (s : Interpreter σ δ) : s.turn.val.1.cycles ≤ s.cycles + 1 := by
  obtain ⟨k, hk, redraw, hprogram⟩ := turn_program s
  have hcycles : s.turn.val.1.cycles = (freeRun k s.pollInput.1).cycles := congrArg (fun p => p.2.2) hprogram
  calc s.turn.val.1.cycles
      = (freeRun k s.pollInput.1).cycles := hcycles
    _ ≤ s.cycles + k := freeRun_cycles_le k s.pollInput.1
    _ ≤ s.cycles + 1 := Nat.add_le_add_left hk s.cycles

theorem polls_turn (d : Interpreter (Metered σ) δ) : d.turn.val.1.input.polls = d.input.polls + 1 := by
  by_cases hpoll : d.pollInput.2 = .ok true
  · obtain ⟨redraw, display, -, hturn, -⟩ := turn_of_question hpoll
    have hinput : d.turn.val.1.input = d.pollInput.1.step.val.1.input := by
      rw [hturn]
      exact congrArg (fun p => p.2.1) (guardedStep_program d.pollInput.1)
    rw [hinput, polls_step]
    rfl
  · rw [(turn_of_no_question hpoll).1]
    rfl

theorem turn_ne_limit (s : Interpreter σ δ) : s.turn.val.2 ≠ some .limit := by
  rcases hanswer : s.pollInput.2 with why | _ | _
  · unfold turn
    simp [hanswer]
  · unfold turn
    simp [hanswer]
  · rw [turn_of_poll hanswer]
    simp only [Noted.val_bind]
    cases s.pollInput.1.guardedStep.val.2 with
    | some fault => simp
    | none =>
      simp only [restOfTurn_val, displayEnding]
      split
      · simp
      · split <;> simp

/-! ## Turns in a row -/

/-- **Cut in two.** Turns in a row are as many as there are in the first part, and then the others, if nothing ended
the first part. -/
theorem turns_add (a b : Nat) (s : Interpreter σ δ) :
    turns (a + b) s = (do
      let (t, ending) ← turns a s
      match ending with
      | some e => pure (t, some e)
      | none => turns b t) := by
  induction a generalizing s with
  | zero => rw [Nat.zero_add, turns, pure_bind]
  | succ a ih =>
    rw [Nat.succ_add, turns, turns, bind_assoc]
    apply bind_congr
    intro turned
    dsimp only
    cases turned.2 with
    | some ending => rfl
    | none => exact ih turned.1

theorem turns_add_of_none {a : Nat} {s t : Interpreter σ δ} (h : (turns a s).val = (t, none)) (b : Nat) :
    (turns (a + b) s).val = (turns b t).val ∧
      (turns (a + b) s).notes = (turns a s).notes ++ (turns b t).notes := by
  rw [turns_add]
  simp only [Noted.val_bind, Noted.notes_bind, h, and_self]

theorem turns_config (n : Nat) (s : Interpreter σ δ) : (turns n s).val.1.config = s.config := by
  have hsame : turns n s = Prod.map (onto id s.config) id <$> turns n s := turns_onto Input.alike_id n s
  rw [hsame]
  rfl

theorem turns_ne_limit (n : Nat) (s : Interpreter σ δ) : (turns n s).val.2 ≠ some .limit := by
  intro hlimit
  obtain ⟨-, t, -, -, ht⟩ := (turns_eq_some_iff n s (turns n s).val.1 .limit).1 (Prod.ext rfl hlimit)
  exact turn_ne_limit t (by rw [ht])

theorem turnsMade_le (n : Nat) (s : Interpreter σ δ) : turnsMade n s ≤ n := by
  induction n generalizing s with
  | zero => exact Nat.le_refl 0
  | succ n ih =>
    obtain ⟨t, ending, ht⟩ : ∃ t ending, s.turn.val = (t, ending) := ⟨_, _, rfl⟩
    cases ending with
    | some ending => simp only [turnsMade, ht, Nat.le_add_left]
    | none => simpa only [turnsMade, ht, Nat.add_le_add_iff_right] using ih t

/-- what holds at the start, and after each turn of what held before it, holds after a run of turns -/
theorem turns_keep {R : Nat → Interpreter σ δ → Prop} (hturn : ∀ k t, R k t → R (k + 1) t.turn.val.1)
    (n : Nat) {s : Interpreter σ δ} (h : R 0 s) : R (turnsMade n s) (turns n s).val.1 := by
  induction n generalizing s R with
  | zero => exact h
  | succ n ih =>
    have hfirst := hturn 0 s h
    obtain ⟨t, ending, ht⟩ : ∃ t ending, s.turn.val = (t, ending) := ⟨_, _, rfl⟩
    rw [ht] at hfirst
    simp only [turnsMade, ht]
    cases ending with
    | some ending =>
      rw [turns_succ_of_some ht]
      exact hfirst
    | none =>
      rw [turns_succ_of_none ht]
      exact ih (R := fun k => R (k + 1)) (fun k => hturn (k + 1)) hfirst

theorem turns_cycles_le (n : Nat) (s : Interpreter σ δ) : (turns n s).val.1.cycles ≤ s.cycles + turnsMade n s := by
  refine turns_keep (R := fun k t => t.cycles ≤ s.cycles + k) ?_ n (Nat.le_refl s.cycles)
  intro k t hcycles
  have hturn := turn_cycles_le t
  omega

theorem polls_turns (n : Nat) (d : Interpreter (Metered σ) δ) :
    (turns n d).val.1.input.polls = d.input.polls + turnsMade n d := by
  refine turns_keep (R := fun k (t : Interpreter (Metered σ) δ) => t.input.polls = d.input.polls + k) ?_ n rfl
  intro k t hpolls
  rw [polls_turn, hpolls, Nat.add_assoc]

/-! ## Main loops -/

/-- what a main loop notes when it is over -/
def closing (limit : Nat) : Ending → List Note
  | .limit => [.limitReached limit]
  | _ => []

/-- a main loop stops at its limit when none of its turns ended it -/
theorem mainLoop_limit_iff (s : Interpreter σ δ) : s.mainLoop.val.2 = .limit ↔ (turns s.limit s).val.2 = none := by
  have hne := turns_ne_limit s.limit s
  rw [mainLoop_val]
  cases hending : (turns s.limit s).val.2 with
  | none => simp
  | some ending =>
    rw [hending] at hne
    simpa using hne

theorem mainLoop_notes (s : Interpreter σ δ) :
    s.mainLoop.notes = (turns s.limit s).notes ++ closing s.limit s.mainLoop.val.2 := by
  have hne := turns_ne_limit s.limit s
  have hlimit : (turns s.limit s).val.1.limit = s.limit := by rw [limit, turns_config, limit]
  rw [mainLoop_val]
  unfold mainLoop
  simp only [Noted.notes_bind, hlimit]
  cases hending : (turns s.limit s).val.2 with
  | none => rfl
  | some ending =>
    rw [hending] at hne
    cases ending with
    | limit => exact absurd rfl hne
    | _ => rfl

omit [Input σ] [Display δ] in
theorem limit_eq {s : Interpreter σ δ} {m : UInt64} (h : s.config.maxCycles = some m) : s.limit = m.toNat := by
  rw [limit, h]

/-- the interpreter with a meter on its device -/
def metered (s : Interpreter σ δ) : Interpreter (Metered σ) δ :=
  s.onto (fun dev => ⟨dev, 0⟩) s.config

/-- the interpreter with another limit in its settings -/
def limitedTo (k : UInt64) (s : Interpreter σ δ) : Interpreter σ δ :=
  { s with config := { s.config with maxCycles := some k } }

theorem metered_mainLoop (s : Interpreter σ δ) :
    s.mainLoop.val = Prod.map (onto Metered.device s.config) id s.metered.mainLoop.val ∧
      s.metered.mainLoop.val.1.input.polls = turnsMade s.limit s := by
  have hlimit : s.metered.limit = s.limit := rfl
  have hturns : (turns s.limit s).val = Prod.map (onto Metered.device s.config) id (turns s.limit s.metered).val := by
    have honto : turns s.limit s = Prod.map (onto Metered.device s.config) id <$> turns s.limit s.metered :=
      turns_onto Metered.alike s.limit s.metered
    rw [honto, Noted.val_map]
  have hmade : turnsMade s.limit s = turnsMade s.limit s.metered :=
    turnsMade_onto Metered.alike s.limit s.metered
  rw [mainLoop_val, mainLoop_val, hlimit, hturns, hmade]
  refine ⟨rfl, ?_⟩
  rw [polls_turns]
  exact Nat.zero_add _

/-- what one turn can come to -/
structure TurnBounded (s : Interpreter σ δ) : Prop where
  polls_eq : s.metered.turn.val.1.input.polls = 1
  /-- after the poll at most one cycle runs -/
  program : ∃ k ≤ 1, ∃ redraw, s.turn.val.1.program =
    Prod.map (fun m : Machine => { m with redraw := redraw }) id (freeRun k s.pollInput.1).program
  cycles_le : s.turn.val.1.cycles ≤ s.cycles + 1

/-- what a main loop with the limit `n` can come to -/
structure LoopBounded (s : Interpreter σ δ) (n : Nat) : Prop where
  turns_le : turnsMade s.limit s ≤ n
  /-- it is that many turns and nothing else -/
  made : s.mainLoop.val.1 = (performAll (List.replicate (turnsMade s.limit s) .turn) s).val
  /-- a meter on the device makes no difference -/
  metered : s.mainLoop.val = Prod.map (onto Metered.device s.config) id s.metered.mainLoop.val
  /-- and it counts one poll for each turn -/
  polls_eq : s.metered.mainLoop.val.1.input.polls = turnsMade s.limit s
  cycles_le : s.mainLoop.val.1.cycles ≤ s.cycles + turnsMade s.limit s
  nothing : n = 0 → s.mainLoop = ⟨(s, .limit), [.limitReached 0]⟩

theorem loopBounded (s : Interpreter σ δ) {n : Nat} (h : s.limit = n) : s.LoopBounded n where
  turns_le := h ▸ turnsMade_le s.limit s
  made := (mainLoop_eq_performAll s).1
  metered := (metered_mainLoop s).1
  polls_eq := (metered_mainLoop s).2
  cycles_le := by
    rw [mainLoop_val]
    exact turns_cycles_le s.limit s
  nothing := by
    rintro rfl
    unfold mainLoop
    rw [h]
    exact Noted.ext rfl (by simp [turns, h])

/-- Two main loops of at most `n` turns, one after the other, against a single one: they end the same way, leave the
interpreter the same but for the settings, show the same frames, and note the same but for the limits they came to. -/
structure AsOne (n : Nat) (first again once : Noted (Interpreter σ δ × Ending)) : Prop where
  ending_eq : again.val.2 = once.val.2
  state_eq : again.val.1 = { once.val.1 with config := first.val.1.config }
  frames_eq : Note.frames (first.notes ++ again.notes) = Note.frames once.notes
  notes_eq : ∃ made made', first.notes = made ++ [.limitReached n] ∧
    again.notes = made' ++ closing n again.val.2 ∧ once.notes = made ++ made' ++ closing (2 * n) once.val.2

omit [Input σ] [Display δ] in
/-- whatever is read of the interpreter but its settings is the same -/
theorem AsOne.read_eq {n : Nat} {first again once : Noted (Interpreter σ δ × Ending)} (h : AsOne n first again once)
    {α : Type} (read : Interpreter σ δ → α) (hread : ∀ t config, read { t with config := config } = read t) :
    read again.val.1 = read once.val.1 := by
  rw [h.state_eq, hread]

omit [Input σ] [Display δ] in
theorem frames_closing (n : Nat) (ending : Ending) : Note.frames (closing n ending) = [] := by
  cases ending <;> rfl

/-- a loop that stopped at its limit can be called once more with the same limit -/
theorem turns_of_stopped {s : Interpreter σ δ} {n : Nat} (h : s.limit = n) (hstop : s.mainLoop.val.2 = .limit) :
    (turns n s).val = (s.mainLoop.val.1, none) ∧ s.mainLoop.val.1.limit = n := by
  have hnone := (mainLoop_limit_iff s).1 hstop
  have hmain : s.mainLoop.val.1 = (turns n s).val.1 := by rw [mainLoop_val, h]
  rw [h] at hnone
  refine ⟨Prod.ext hmain.symm hnone, ?_⟩
  rw [hmain, limit, turns_config, ← h, limit]

/-- under another limit the turns go the same way -/
theorem mainLoop_limitedTo (k : UInt64) (s : Interpreter σ δ) :
    (s.limitedTo k).mainLoop.val = ((turns k.toNat s).val.1.onto id (s.limitedTo k).config,
      (turns k.toNat s).val.2.getD .limit) ∧
    (s.limitedTo k).mainLoop.notes =
      (turns k.toNat s).notes ++ closing k.toNat (s.limitedTo k).mainLoop.val.2 := by
  have hlimit : (s.limitedTo k).limit = k.toNat := limit_eq rfl
  have honto : turns k.toNat (s.limitedTo k) = Prod.map (onto id (s.limitedTo k).config) id <$> turns k.toNat s :=
    turns_onto Input.alike_id k.toNat s
  constructor
  · rw [mainLoop_val, hlimit, honto]
    rfl
  · rw [mainLoop_notes, hlimit, honto, Noted.notes_map]

/-- a single loop has the turns of both -/
theorem asOne_of_limit {s : Interpreter σ δ} {n : Nat} (h : s.limit = n) (hstop : s.mainLoop.val.2 = .limit)
    {k : UInt64} (hk : k.toNat = 2 * n) :
    AsOne n s.mainLoop s.mainLoop.val.1.mainLoop (s.limitedTo k).mainLoop := by
  obtain ⟨hfirst, hagain⟩ := turns_of_stopped h hstop
  obtain ⟨hboth, hnotes⟩ := turns_add_of_none hfirst n
  obtain ⟨honce, hlogged⟩ := mainLoop_limitedTo k s
  rw [← Nat.two_mul] at hboth hnotes
  rw [hk, hboth] at honce
  rw [hk, hnotes] at hlogged
  have hmade : s.mainLoop.notes = (turns n s).notes ++ [.limitReached n] := by
    rw [mainLoop_notes, hstop, h]
    rfl
  have hmade' : s.mainLoop.val.1.mainLoop.notes =
      (turns n s.mainLoop.val.1).notes ++ closing n s.mainLoop.val.1.mainLoop.val.2 := by
    rw [mainLoop_notes, hagain]
  refine ⟨?_, ?_, ?_, _, _, hmade, hmade', hlogged⟩
  · rw [honce, mainLoop_val, hagain]
  · rw [honce, mainLoop_val, hagain, ← turns_config n s.mainLoop.val.1]
    rfl
  · have hlimit : Note.frames [.limitReached n] = [] := rfl
    rw [hmade, hmade', hlogged]
    simp only [Note.frames_append, frames_closing, hlimit, List.append_nil]

/-- **Resuming.** Whatever an interpreter is like, with a limit of `m` in its settings:
- its main loop makes at most `m` turns and nothing else; it polls the input once for each of them, and counts at most
  one cycle for each; with `m = 0` it does nothing but note that;
- a turn polls once, and then runs at most one cycle;
- when it stopped at its limit, calling it once more comes to what a single loop with twice the limit comes to. -/
theorem limited_loop_resumes (s : Interpreter σ δ) (m : UInt64) (hm : s.config.maxCycles = some m) :
    s.LoopBounded m.toNat ∧ (∀ t : Interpreter σ δ, t.TurnBounded) ∧
    (s.mainLoop.val.2 = .limit → ∀ k : UInt64, k.toNat = 2 * m.toNat →
      AsOne m.toNat s.mainLoop s.mainLoop.val.1.mainLoop (s.limitedTo k).mainLoop) := by
  have hlimit : s.limit = m.toNat := limit_eq hm
  refine ⟨loopBounded s hlimit, fun t => ⟨?_, turn_program t, turn_cycles_le t⟩, ?_⟩
  · rw [polls_turn]
    rfl
  · intro hstop k hk
    exact asOne_of_limit hlimit hstop hk

/-- CLS; an opcode that is no instruction; back to the CLS. Main loops have four turns, and there is a subscriber. -/
def fourTurns : Interpreter HeldKeys FrameCounter :=
  (performAll [.loading [0x00, 0xE0, 0xFF, 0xFF, 0x12, 0x00], .subscribe] (easel.limitedTo 4)).val

/-- Two loops of four turns are one of eight: the fault comes up in both, and is reported in the first alone. -/
theorem four_turns_twice :
    ∃ first again, first = fourTurns.mainLoop ∧ again = first.val.1.mainLoop ∧
      first.val.2 = .limit ∧ fourTurns.metered.mainLoop.val.1.input.polls = 4 ∧
      AsOne 4 first again (fourTurns.limitedTo 8).mainLoop ∧ again.val.2 = .limit ∧
      again.val.1.faults = 3 ∧ again.val.1.cycles = 8 ∧
      again.val.1.monitor.events = some [.fault 0x202 (.invalidOpcode 0xFFFF 0x202)] ∧
      (Note.frames (first.notes ++ again.notes)).length = 3 := by
  -- one evaluation of the single loop for all that is read off it
  obtain ⟨hlimit, hfour, hstop, hending, hfaults, hcycles, hevents, hframes⟩ :
      fourTurns.config.maxCycles = some 4 ∧ turnsMade fourTurns.limit fourTurns = 4 ∧
      fourTurns.mainLoop.val.2 = .limit ∧
      (fourTurns.limitedTo 8).mainLoop.val.2 = .limit ∧
      (fourTurns.limitedTo 8).mainLoop.val.1.faults = 3 ∧ (fourTurns.limitedTo 8).mainLoop.val.1.cycles = 8 ∧
      (fourTurns.limitedTo 8).mainLoop.val.1.monitor.events =
        some [.fault 0x202 (.invalidOpcode 0xFFFF 0x202)] ∧
      (Note.frames (fourTurns.limitedTo 8).mainLoop.notes).length = 3 := by
    decide +kernel
  obtain ⟨hbounded, -, hresumes⟩ := limited_loop_resumes fourTurns 4 hlimit
  have hone := hresumes hstop 8 rfl
  refine ⟨_, _, rfl, rfl, hstop, hbounded.polls_eq.trans hfour, hone, ?_, ?_, ?_, ?_, ?_⟩
  · rw [hone.ending_eq, hending]
  · have hsame := hone.read_eq (fun t => t.faults) fun _ _ => rfl
    exact hsame.trans hfaults
  · have hsame := hone.read_eq (fun t => t.cycles) fun _ _ => rfl
    exact hsame.trans hcycles
  · have hsame := hone.read_eq (fun t => t.monitor.events) fun _ _ => rfl
    exact hsame.trans hevents
  · rw [hone.frames_eq, hframes]

end Interpreter

end Chip8
