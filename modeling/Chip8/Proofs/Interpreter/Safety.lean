/-
No program kills the interpreter. Its main loop is looked at alone, and in a world that acts between its turns: timers
tick, keys go up and down, the debugger sends commands. Either way it ends in failure only when a device fails, in a turn
before which no other turn has ended it (`loopEnding`). And whatever state the interpreter is in, the program's own faults
do not keep the turn from going on, and every index is in range (`Safe`).

Results:
- `Safe.of_interpreter`: every state is safe;
- `loopEnding_eq_some_iff`: a main loop ends as the first of its turns does that ends it;
- `turns_eq_loopEnding`: the main loop alone is a list of turns;
- `mainLoop_survives`: all of this together.
-/
import Chip8.Proofs.IndexSafety
import Chip8.Proofs.Interpreter.History

namespace Chip8.Interpreter

variable {σ δ : Type} [Input σ] [Display δ]

/-! ## States -/

/-- what no program gets past, whatever it has done to the machine -/
structure Safe (s : Interpreter σ δ) : Prop where
  faults : ∀ f ∈ s.cycle.val.2, f.ofProgram = true ∨
    ∃ x why, s.Executes (.awaitKey x) ∧ f = .io why ∧ (Input.await s.input).result = .error why
  /-- every index is in range: the cycle has its outcome on the bare machine too -/
  indices : (Bare.of s.machine).cycle s.input =
    some (Bare.of s.cycle.val.1.machine, s.cycle.val.1.input, s.cycle.val.2)
  /-- the rest of the turn follows a fault of the program, on the machine and the devices as the step left them -/
  goesOn : ∀ f, s.pollInput.2 = .ok true → s.pollInput.1.step.val.2 = .error f → f.ofProgram = true →
    ∃ mon last n, s.turn.val =
      (restOfTurn { s.pollInput.1.step.val.1 with monitor := mon, lastFault := last, faults := n }).val

theorem Safe.of_interpreter (s : Interpreter σ δ) : s.Safe where
  faults := cycle_fault s
  indices := Bare.cycle_of s
  goesOn f hpoll hstep hf := by
    obtain ⟨mon, last, n, hframe⟩ := takeFault_frame s.pollInput.1.step.val.1 s.pollInput.1.machine.pc f
    refine ⟨mon, last, n, ?_⟩
    rw [turn_after_fault hpoll hstep hf]
    simp only [Noted.val_bind, hframe]

/-! ## Runs -/

/-- how an action ends the main loop, if it is a turn that does -/
def ending (s : Interpreter σ δ) : Action σ δ → Option Ending
  | .turn => s.turn.val.2
  | _ => none

/-- how the main loop ends whose turns are among these actions: the first turn that ends it decides -/
def loopEnding : List (Action σ δ) → Interpreter σ δ → Option Ending
  | [], _ => none
  | a :: as, s => (s.ending a).or (loopEnding as (s.perform a).val)

theorem ending_eq_some_iff {s : Interpreter σ δ} {a : Action σ δ} {e : Ending} :
    s.ending a = some e ↔ a = .turn ∧ s.turn.val.2 = some e := by
  cases a with
  | turn => exact ⟨fun h => ⟨rfl, h⟩, fun h => h.2⟩
  | _ => exact ⟨nofun, nofun⟩

/-- **Loops that end.** A main loop ends as the first of its turns does that ends it. -/
theorem loopEnding_eq_some_iff {as : List (Action σ δ)} {s : Interpreter σ δ} {e : Ending} :
    loopEnding as s = some e ↔ ∃ before after, as = before ++ .turn :: after ∧ loopEnding before s = none ∧
      (performAll before s).val.turn.val.2 = some e := by
  induction as generalizing s with
  | nil =>
    constructor
    · intro h
      cases h
    · rintro ⟨before, after, has, -⟩
      cases before <;> cases has
  | cons a as ih =>
    rw [loopEnding, Option.or_eq_some_iff, ih]
    constructor
    · rintro (hfirst | ⟨hgoes, before, after, rfl, hnone, hturn⟩)
      · obtain ⟨rfl, hturn⟩ := ending_eq_some_iff.1 hfirst
        exact ⟨[], as, rfl, rfl, hturn⟩
      · refine ⟨a :: before, after, rfl, ?_, hturn⟩
        rw [loopEnding, hgoes, hnone]
        rfl
    · rintro ⟨before, after, has, hnone, hturn⟩
      cases before with
      | nil =>
        obtain ⟨rfl, rfl⟩ := List.cons.inj has
        exact .inl hturn
      | cons b before =>
        obtain ⟨rfl, rfl⟩ := List.cons.inj has
        obtain ⟨hgoes, hlater⟩ := Option.or_eq_none_iff.1 hnone
        exact .inr ⟨hgoes, before, after, rfl, hlater, hturn⟩

theorem turns_eq_loopEnding (n : Nat) (s : Interpreter σ δ) :
    (turns n s).val.2 = loopEnding (List.replicate n .turn) s := by
  induction n generalizing s with
  | zero => rfl
  | succ n ih =>
    obtain ⟨t, ending, hturn⟩ : ∃ t ending, s.turn.val = (t, ending) := ⟨_, _, rfl⟩
    have hperform : (s.perform .turn).val = t := congrArg Prod.fst hturn
    rw [List.replicate_succ, loopEnding, Interpreter.ending, hperform, hturn]
    cases ending with
    | some e =>
      rw [turns_succ_of_some hturn]
      rfl
    | none =>
      rw [turns_succ_of_none hturn, ih]
      rfl

theorem loopEnding_failed_iff {as : List (Action σ δ)} {s : Interpreter σ δ} {f : Fault} :
    loopEnding as s = some (.failed f) ↔ ∃ why before after, f = .io why ∧ as = before ++ .turn :: after ∧
      loopEnding before s = none ∧ (performAll before s).val.DeviceFails why := by
  rw [loopEnding_eq_some_iff]
  constructor
  · rintro ⟨before, after, has, hnone, hturn⟩
    obtain ⟨why, rfl, hfails⟩ := (turn_failed_iff _ f).1 hturn
    exact ⟨why, before, after, rfl, has, hnone, hfails⟩
  · rintro ⟨why, before, after, rfl, has, hnone, hfails⟩
    exact ⟨before, after, has, hnone, hfails.turn_failed⟩

/-- **No program kills the interpreter.** Whatever is in memory, whatever the settings, the debugger's commands and the
keys, the main loop ends in failure exactly when, in one of its turns, a poll, a wait for a key or a rendering came back
with an error, and with that error. So it is in any world too that acts between the turns, and the main loop alone is the
case where nothing does. And in no state does a cycle fault with anything but the program's own mistakes (save such an
error), ask for an index out of range, or keep the rest of its turn from happening. -/
theorem mainLoop_survives (s : Interpreter σ δ) :
    (∀ f, s.mainLoop.val.2 = .failed f ↔ ∃ why n t,
      f = .io why ∧ n < s.limit ∧ (turns n s).val = (t, none) ∧ t.DeviceFails why) ∧
    s.mainLoop.val.2 = (loopEnding (List.replicate s.limit .turn) s).getD .limit ∧
    (∀ (as : List (Action σ δ)) f, loopEnding as s = some (.failed f) ↔ ∃ why before after,
      f = .io why ∧ as = before ++ .turn :: after ∧ loopEnding before s = none ∧
        (performAll before s).val.DeviceFails why) ∧
    ∀ t : Interpreter σ δ, t.Safe := by
  refine ⟨fun f => ?_, ?_, fun as f => loopEnding_failed_iff, Safe.of_interpreter⟩
  · rw [mainLoop_failed_iff]
    constructor
    · rintro ⟨n, t, hlt, hn, ht⟩
      obtain ⟨why, rfl, hfails⟩ := (turn_failed_iff t f).1 ht
      exact ⟨why, n, t, rfl, hlt, hn, hfails⟩
    · rintro ⟨why, n, t, rfl, hlt, hn, hfails⟩
      exact ⟨n, t, hlt, hn, hfails.turn_failed⟩
  · rw [mainLoop_val, turns_eq_loopEnding]

end Chip8.Interpreter
