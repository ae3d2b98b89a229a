/-
Waiting for a key, and quitting instead. A wait that gets no key puts the program counter back to where the wait was
fetched, so that the machine is as it was and would wait once more. It does not come to that in a main loop on held
keys: once their presses have run out, the next poll says to quit, before any step.

The last turn but one still shows the screen if a change of it waits to be shown, and asks whether the display is there.
So the loop can end in that turn already, with the display's error or because the display is gone; the machine is the
same in each case.

Results:
- `Waits.of_awaitsKey`: what a cycle makes of a wait, by what the device answers;
- `RunsOut.turn_val`, `Waiting.turn_val`: the turn in which the presses run out, and the one after it;
- `RunsOut.mainLoop_val`: the main loop around them;
- `key_wait_restarts`: all of this together;
- `last_wait_can_fail`: a loop that ends in the turn of the wait, since the display fails.
-/
import Chip8.Proofs.Interpreter.SingleStep
import Chip8.Proofs.OpcodeDigits

namespace Chip8

theorem Instruction.decode_awaitKey (x : Register) : decode (Opcode.ofDigits 0xF x 0 0xA) = some (.awaitKey x) := by
  unfold decode
  rw [Opcode.named_fifteen, Opcode.x_ofDigits]
  rfl

/-- going back by an instruction undoes the skip of one -/
theorem Machine.rewind_skip (m : Machine) : m.skip.jump (m.skip.pc - 2) = m := by
  have hpc : m.skip.pc - 2 = m.pc := UInt16.add_sub_cancel m.pc 2
  rw [hpc]
  rfl

namespace HeldKeys

/-- without a press left a wait is a quit -/
theorem await_of_nil {d : HeldKeys} (h : d.presses = []) : d.await = ⟨{ d with quit := true }, .ok none⟩ := by
  obtain ⟨keys, presses, quit⟩ := d
  cases h
  rfl

/-- what a device that holds these keys is polled to -/
theorem poll_eq (d : HeldKeys) (pad : Keypad) :
    d.poll pad = ⟨d, (pressAll .released d.keys).1, [], (pressAll .released d.keys).2.map fun _ => !d.quit⟩ := rfl

/-- after a wait without a key a device that carried on holds the same keys down, but quits -/
theorem poll_of_quit {d : HeldKeys} (pad pad' : Keypad) (h : (d.poll pad).result = .ok true) :
    { d with quit := true }.poll pad' = ⟨{ d with quit := true }, (d.poll pad).keypad, [], .ok false⟩ := by
  rw [poll_eq] at h ⊢
  cases hpressed : (pressAll .released d.keys).2 with
  | error why =>
    rw [hpressed] at h
    cases h
  | ok pressed =>
    simp only [hpressed, poll_eq]
    rfl

end HeldKeys

namespace Interpreter

variable {σ δ : Type}

/-! ## One cycle -/

/-- the instruction at the program counter waits for a key for Vx -/
def AwaitsKey (s : Interpreter σ δ) (x : Register) : Prop :=
  s.machine.memory.readWord s.machine.pc = .ok (Opcode.ofDigits 0xF x 0 0xA)

instance (s : Interpreter σ δ) (x : Register) : Decidable (s.AwaitsKey x) :=
  inferInstanceAs (Decidable (_ = _))

section
variable [Input σ]

/-- after a cycle that waited and left this machine: the device has been asked, and one more cycle was run -/
def waited (s : Interpreter σ δ) (m : Machine) : Interpreter σ δ :=
  { s with machine := m, input := (Input.await s.input).device, cycles := s.cycles + 1 }

/-- what a cycle makes of a wait for a key, by what the device answers -/
structure Waits (s : Interpreter σ δ) (x : Register) : Prop where
  /-- the next instruction is two bytes on, without wrapping around -/
  next : s.machine.skip.pc.toNat = s.machine.pc.toNat + 2
  /-- without a key the machine is as before the fetch -/
  quit : (Input.await s.input).result = .ok none → s.cycle.val = (s.waited s.machine, none)
  pressed : ∀ key, (Input.await s.input).result = .ok (some key) → key.toNat < 16 →
    s.cycle.val = (s.waited (s.machine.skip.setV x key), none)
  /-- a key that is not on the keypad -/
  unknown : ∀ key, (Input.await s.input).result = .ok (some key) → 16 ≤ key.toNat →
    s.cycle.val = (s.waited s.machine.skip, some (.noSuchKey key))
  failed : ∀ why, (Input.await s.input).result = .error why →
    s.cycle.val = (s.waited s.machine.skip, some (.io why))

/-- a cycle that waits does what the instruction does past the fetch -/
theorem cycle_of_awaitsKey {s : Interpreter σ δ} {x : Register} (h : s.AwaitsKey x) {m : Machine} {fault : Option Fault}
    (hwait : awaitKey s.machine.skip s.input x = ⟨m, (Input.await s.input).device, fault⟩) :
    s.cycle.val = (s.waited m, fault) := by
  have hfetch : s.machine.fetch = .ok (Opcode.ofDigits 0xF x 0 0xA, s.machine.skip) := Machine.fetch_of_readWord h
  simp only [cycle, hfetch, Instruction.decode_awaitKey, execute, Noted.val_bind, Noted.val_pure, hwait, waited]

/-- **Waiting.** Whatever the machine and the device, a wait for a key comes to one of the listed ends. -/
theorem Waits.of_awaitsKey {s : Interpreter σ δ} {x : Register} (h : s.AwaitsKey x) : s.Waits x where
  next := by
    have hin := Memory.readWord_eq_ok h
    exact Machine.toNat_skip_pc (by omega)
  quit hquit := by
    apply cycle_of_awaitsKey h
    rw [awaitKey, hquit]
    exact congrArg (fun m => Outcome.mk m _ none) s.machine.rewind_skip
  pressed key hkey hlt := by
    apply cycle_of_awaitsKey h
    rw [awaitKey, hkey]
    exact if_pos hlt
  unknown key hkey hge := by
    apply cycle_of_awaitsKey h
    rw [awaitKey, hkey]
    exact if_neg (Nat.not_lt.2 hge)
  failed why hwhy := by
    apply cycle_of_awaitsKey h
    rw [awaitKey, hwhy]

end

/-! ## The rest of a turn -/

section
variable [Display δ]

/-- the display after the rest of a turn, and why it failed, if it did -/
def displayed (s : Interpreter σ δ) : δ × Option String :=
  if s.machine.redraw then Display.render s.display s.machine.screen else (s.display, none)

/-- the interpreter after the rest of a turn -/
def settle (s : Interpreter σ δ) : Interpreter σ δ :=
  { s with machine := { s.machine with redraw := false }, display := s.displayed.1 }

/-- why the display ends the run, if it does -/
def displayEnding (s : Interpreter σ δ) : Option Ending :=
  match s.displayed.2 with
  | some why => some (.failed (.io why))
  | none => if Display.alive s.displayed.1 then none else some .closed

theorem displayEnding_of_shown {s : Interpreter σ δ} (hshown : s.displayed.2 = none)
    (halive : Display.alive s.displayed.1 = true) : s.displayEnding = none := by
  rw [displayEnding, hshown]
  exact if_pos halive

theorem refresh_val (s : Interpreter σ δ) : s.refresh.val = (s.settle, s.displayed.2) := by
  unfold refresh Machine.takeRedraw settle displayed
  by_cases hredraw : s.machine.redraw = true
  · simp only [hredraw, if_true]
    cases (Display.render s.display s.machine.screen).2 with
    | none => rfl
    | some why => rfl
  · simp only [if_neg hredraw]
    rfl

theorem restOfTurn_val (s : Interpreter σ δ) : s.restOfTurn.val = (s.settle, s.displayEnding) := by
  unfold restOfTurn displayEnding
  simp only [Noted.val_bind, refresh_val]
  cases s.displayed.2 with
  | some why => rfl
  | none =>
    have hdisplay : s.settle.display = s.displayed.1 := rfl
    by_cases halive : Display.alive s.displayed.1 = true
    · simp only [hdisplay, if_pos halive, Noted.val_pure]
    · simp only [hdisplay, if_neg halive, Noted.val_bind, Noted.val_pure]

end

/-! ## Held keys that run out -/

/-- the next turn comes to a wait for a key, and no press is left to hand out -/
structure RunsOut (t : Interpreter HeldKeys δ) (x : Register) : Prop where
  polled : t.pollInput.2 = .ok true
  permitted : t.pollInput.1.Permitted
  awaits : t.AwaitsKey x
  noPress : t.input.presses = []

instance (t : Interpreter HeldKeys δ) (x : Register) : Decidable (t.RunsOut x) :=
  decidable_of_iff (t.pollInput.2 = .ok true ∧ t.pollInput.1.Permitted ∧ t.AwaitsKey x ∧ t.input.presses = [])
    ⟨fun h => ⟨h.1, h.2.1, h.2.2.1, h.2.2.2⟩, fun h => ⟨h.polled, h.permitted, h.awaits, h.noPress⟩⟩

/-- after the step of that turn: the machine as it was polled, one more cycle, and a device that is going to quit -/
def quitting (t : Interpreter HeldKeys δ) : Interpreter HeldKeys δ :=
  { t.pollInput.1 with
    monitor := (t.pollInput.1.monitor.permit t.machine.pc).val.2.endCycle
    input := { t.input with quit := true }
    cycles := t.cycles + 1 }

theorem RunsOut.guardedStep_val {t : Interpreter HeldKeys δ} {x : Register} (h : t.RunsOut x) :
    t.pollInput.1.guardedStep.val = (t.quitting, none) := by
  have hwait : t.pollInput.1.asked.Waits x := Waits.of_awaitsKey h.awaits
  have hawait : Input.await t.pollInput.1.asked.input = ⟨{ t.input with quit := true }, .ok none⟩ :=
    HeldKeys.await_of_nil h.noPress
  have hcycle : t.pollInput.1.asked.cycle.val = (t.pollInput.1.asked.waited t.pollInput.1.machine, none) :=
    hwait.quit (by rw [hawait])
  have hok : t.pollInput.1.step.val.2 = .ok true := by
    rw [step_of_permitted h.permitted, hcycle]
    rfl
  rw [(guardedStep_of_ok hok).1, step_val_of_permitted h.permitted, hcycle, waited, hawait]
  rfl

/-- `u` comes after the turn of `t` in which the presses ran out, and no instruction was executed since -/
structure Waiting (t : Interpreter HeldKeys δ) (x : Register) (u : Interpreter HeldKeys δ) : Prop where
  pc : u.machine.pc = t.machine.pc
  awaits : u.AwaitsKey x
  cycles : u.cycles = t.cycles + 1
  input : u.input = { t.input with quit := true }

/-- polling a device that is going to quit sets the keypad and nothing else -/
theorem pollInput_of_quit {t u : Interpreter HeldKeys δ} (hpolled : t.pollInput.2 = .ok true)
    (hinput : u.input = { t.input with quit := true }) :
    u.pollInput = ({ u with machine := { u.machine with keypad := t.pollInput.1.machine.keypad } }, .ok false) := by
  have hpoll : Input.poll u.input u.machine.keypad =
      ⟨u.input, t.pollInput.1.machine.keypad, [], .ok false⟩ := by
    rw [hinput]
    exact HeldKeys.poll_of_quit t.machine.keypad u.machine.keypad hpolled
  have hmonitor : u.monitor.sendAll [] = u.monitor := by rw [Monitor.sendAll, List.append_nil]
  rw [pollInput, hpoll, hmonitor]

theorem Waiting.poll {t u : Interpreter HeldKeys δ} {x : Register} (h : t.Waiting x u)
    (hpolled : t.pollInput.2 = .ok true) : t.Waiting x u.pollInput.1 := by
  rw [pollInput_of_quit hpolled h.input]
  exact ⟨h.pc, h.awaits, h.cycles, h.input⟩

section
variable [Display δ]

/-- **The turn in which the presses run out.** Nothing of the machine changes past the poll; what is left of the turn
is to show the screen if that is asked for. -/
theorem RunsOut.turn_val {t : Interpreter HeldKeys δ} {x : Register} (h : t.RunsOut x) :
    t.turn.val = (t.quitting.settle, t.quitting.displayEnding) := by
  rw [turn_of_poll h.polled]
  simp only [Noted.val_bind, h.guardedStep_val, restOfTurn_val]

theorem turn_of_quit {s : Interpreter HeldKeys δ} (h : s.pollInput.2 = .ok false) :
    s.turn.val = (s.pollInput.1, some .quit) := by
  unfold turn
  simp only [h, Noted.val_bind, Noted.val_pure]

/-- **The turn after it.** The loop quits before any step. -/
theorem Waiting.turn_val {t u : Interpreter HeldKeys δ} {x : Register} (h : t.Waiting x u)
    (hpolled : t.pollInput.2 = .ok true) : u.turn.val = (u.pollInput.1, some .quit) := by
  have hquit : u.pollInput.2 = .ok false := by rw [pollInput_of_quit hpolled h.input]
  exact turn_of_quit hquit

theorem RunsOut.waiting_settle {t : Interpreter HeldKeys δ} {x : Register} (h : t.RunsOut x) :
    t.Waiting x t.quitting.settle :=
  ⟨rfl, h.awaits, rfl, rfl⟩

/-- the keys held down are polled once more, and are the same -/
theorem RunsOut.poll_settle {t : Interpreter HeldKeys δ} {x : Register} (h : t.RunsOut x) :
    t.quitting.settle.pollInput.1 = t.quitting.settle := by
  rw [pollInput_of_quit h.polled h.waiting_settle.input]
  rfl

/-! ## Between two turns -/

/-- what happens between two turns of a main loop: timers tick, the display may come and go, the debugger sends commands
and reads events; memory, program counter and input device are left alone -/
def Action.BetweenTurns : Action HeldKeys δ → Prop
  | .step | .turn => False
  | .world change => ∀ m dev d, (change m dev d).1.memory = m.memory ∧ (change m dev d).1.pc = m.pc ∧
      (change m dev d).2.1 = dev
  | _ => True

theorem Waiting.perform {t u : Interpreter HeldKeys δ} {x : Register} (h : t.Waiting x u) {a : Action HeldKeys δ}
    (ha : a.BetweenTurns) : t.Waiting x (u.perform a).val := by
  cases a with
  | step => exact absurd ha id
  | turn => exact absurd ha id
  | world change =>
    obtain ⟨hmemory, hpc, hdev⟩ := ha u.machine u.input u.display
    refine ⟨hpc.trans h.pc, ?_, h.cycles, hdev.trans h.input⟩
    show (change u.machine u.input u.display).1.memory.readWord (change u.machine u.input u.display).1.pc = _
    rw [hmemory, hpc]
    exact h.awaits
  | _ => exact ⟨h.pc, h.awaits, h.cycles, h.input⟩

theorem Waiting.performAll {t u : Interpreter HeldKeys δ} {x : Register} (h : t.Waiting x u)
    {as : List (Action HeldKeys δ)} (has : ∀ a ∈ as, a.BetweenTurns) : t.Waiting x (performAll as u).val := by
  induction as generalizing u with
  | nil => exact h
  | cons a as ih =>
    obtain ⟨ha, has⟩ := List.forall_mem_cons.1 has
    exact ih (h.perform ha) has

end

/-! ## Main loops -/

section
variable [Display δ]

/-- **The loop around the wait.** When the presses run out in a wait, it ends right there with what the display says,
or quits in the next turn, unless the limit leaves none; the machine is the same in each case. -/
theorem RunsOut.mainLoop_val {s t : Interpreter HeldKeys δ} {n : Nat} {x : Register} (hn : n < s.limit)
    (ht : (turns n s).val = (t, none)) (h : t.RunsOut x) :
    s.mainLoop.val =
      (t.quitting.settle, t.quitting.displayEnding.getD (if n + 1 < s.limit then .quit else .limit)) := by
  have hturn := h.turn_val
  have hwait := turns_succ_last ht
  rw [Interpreter.mainLoop_val]
  cases hending : t.quitting.displayEnding with
  | some e =>
    have hend : (turns s.limit s).val = (t.quitting.settle, some e) :=
      (turns_eq_some_iff s.limit s _ e).2 ⟨n, t, hn, ht, hending ▸ hturn⟩
    rw [hend]
    rfl
  | none =>
    rw [hending] at hturn
    have hon : (turns (n + 1) s).val = (t.quitting.settle, none) := hwait.trans hturn
    by_cases hlimit : n + 1 < s.limit
    · have hquit : t.quitting.settle.turn.val = (t.quitting.settle, some .quit) := by
        rw [h.waiting_settle.turn_val h.polled, h.poll_settle]
      have hend : (turns s.limit s).val = (t.quitting.settle, some .quit) :=
        (turns_eq_some_iff s.limit s _ _).2 ⟨n + 1, _, hlimit, hon, hquit⟩
      rw [hend, if_pos hlimit]
      rfl
    · have hlast : s.limit = n + 1 := by omega
      rw [hlast, hon, if_neg (Nat.lt_irrefl _)]

/-- the turn in which the presses run out, and what comes after it -/
structure LastWait (t : Interpreter HeldKeys δ) (x : Register) : Prop where
  /-- nothing of the machine changes past the poll, but that no change of the screen waits to be shown any more -/
  machine : t.turn.val.1.machine = { t.pollInput.1.machine with redraw := false }
  waiting : t.Waiting x t.turn.val.1
  /-- the turn is the last one only if the display says so -/
  ending : t.turn.val.2 = t.quitting.displayEnding
  /-- whatever happens until the next turn, the loop quits there, before any step -/
  next : ∀ between : List (Action HeldKeys δ), (∀ a ∈ between, a.BetweenTurns) →
    let u := (performAll between t.turn.val.1).val
    t.Waiting x u ∧ u.turn.val = (u.pollInput.1, some .quit) ∧ t.Waiting x u.pollInput.1

/-- the main loop around that turn, which comes after `n` others -/
structure LoopQuits (s : Interpreter HeldKeys δ) (n : Nat) (t : Interpreter HeldKeys δ) (x : Register) : Prop where
  machine : s.mainLoop.val.1.machine = { t.pollInput.1.machine with redraw := false }
  waiting : t.Waiting x s.mainLoop.val.1
  /-- a change of the screen waited to be shown, and the display failed to -/
  failed : ∀ why, t.quitting.displayed.2 = some why → s.mainLoop.val.2 = .failed (.io why)
  /-- the display is gone -/
  closed : t.quitting.displayed.2 = none → Display.alive t.quitting.displayed.1 = false → s.mainLoop.val.2 = .closed
  /-- and else the loop goes on from the wait, to end at its next turn, or at the limit if there is none -/
  next : t.quitting.displayed.2 = none → Display.alive t.quitting.displayed.1 = true →
    (turns (n + 1) s).val.2 = none ∧
    if n + 1 < s.limit then
      (turns (n + 2) s).val = (s.mainLoop.val.1, some .quit) ∧ s.mainLoop.val.2 = .quit
    else s.mainLoop.val.2 = .limit

theorem RunsOut.lastWait {t : Interpreter HeldKeys δ} {x : Register} (h : t.RunsOut x) : t.LastWait x := by
  have hwaiting : t.Waiting x t.turn.val.1 := by
    rw [h.turn_val]
    exact h.waiting_settle
  constructor
  case machine =>
    rw [h.turn_val]
    rfl
  case waiting => exact hwaiting
  case ending => rw [h.turn_val]
  case next =>
    intro between hbetween u
    have hlater : t.Waiting x u := hwaiting.performAll hbetween
    exact ⟨hlater, hlater.turn_val h.polled, hlater.poll h.polled⟩

theorem RunsOut.loopQuits {s t : Interpreter HeldKeys δ} {n : Nat} {x : Register} (hn : n < s.limit)
    (ht : (turns n s).val = (t, none)) (h : t.RunsOut x) : s.LoopQuits n t x := by
  have hloop := h.mainLoop_val hn ht
  constructor
  case machine =>
    rw [hloop]
    rfl
  case waiting =>
    rw [hloop]
    exact h.waiting_settle
  case failed =>
    intro why hwhy
    rw [hloop, displayEnding, hwhy]
    rfl
  case closed =>
    intro hshown hgone
    rw [hloop, displayEnding, hshown, hgone]
    rfl
  case next =>
    intro hshown halive
    have hon : (turns (n + 1) s).val = (t.quitting.settle, none) := by
      rw [turns_succ_last ht, h.turn_val, displayEnding_of_shown hshown halive]
    rw [hloop, displayEnding_of_shown hshown halive]
    refine ⟨by rw [hon], ?_⟩
    by_cases hlimit : n + 1 < s.limit
    · rw [if_pos hlimit]
      refine ⟨?_, if_pos hlimit⟩
      rw [turns_succ_last hon, h.waiting_settle.turn_val h.polled, h.poll_settle]
    · rw [if_neg hlimit]
      exact if_neg hlimit

/-- **Waiting for a key can be done again.**
- For every machine, every device and every LD Vx, K at the program counter: a cycle without a key leaves the machine as
  before the fetch, one with a key sets Vx and goes on, and one with a key that is not on the keypad fails with it and
  goes on.
- For every turn on held keys that comes to such a wait when their presses have run out: the machine waits where it did,
  and whatever happens between turns, the next turn quits before any step.
- For every main loop that comes to that turn: the machine it ends with waits there, and no instruction is executed
  after the wait. The loop ends in the turn of the wait if the display fails to show a change of the screen or is gone,
  else in the next one. -/
theorem key_wait_restarts :
    (∀ {σ δ : Type} [Input σ] (s : Interpreter σ δ) (x : Register), s.AwaitsKey x → s.Waits x) ∧
    (∀ {δ : Type} [Display δ] (t : Interpreter HeldKeys δ) (x : Register), t.RunsOut x → t.LastWait x) ∧
    (∀ {δ : Type} [Display δ] (s t : Interpreter HeldKeys δ) (n : Nat) (x : Register),
      n < s.limit → (turns n s).val = (t, none) → t.RunsOut x → s.LoopQuits n t x) := by
  refine ⟨?_, ?_, ?_⟩
  · intro σ δ _ s x h
    exact Waits.of_awaitsKey h
  · intro δ _ t x h
    exact h.lastWait
  · intro δ _ s t n x hn ht h
    exact h.loopQuits hn ht

/-- a program, presses and a display, and at most ten turns -/
def tenTurns (program presses : List UInt8) (display : FrameCounter) : Interpreter HeldKeys FrameCounter where
  machine := { Machine.fresh .disabled (.ofSeed 0) with
    memory := ⟨Memory.place (Vector.replicate 4096 0) 0x200 program⟩ }
  monitor := .fresh
  input := .ofKeys [] presses
  display := display
  config := { Config.default with maxCycles := some 10 }
  cycles := 0
  faults := 0
  lastFault := none

/-- LD V0, K; LD V1, K; and a press for the first of them -/
def twoWaits : Interpreter HeldKeys FrameCounter :=
  tenTurns [0xF0, 0x0A, 0xF1, 0x0A] [7] .steady

/-- the first wait gets its key, and the loop quits after the second one, also when the debugger wants it to pause -/
theorem second_wait_quits :
    let t := (turns 1 twoWaits).val.1
    let u := (performAll [.send .pause] t.turn.val.1).val
    (twoWaits.AwaitsKey 0 ∧ twoWaits.cycle.val = (twoWaits.waited (twoWaits.machine.skip.setV 0 7), none)) ∧
      (t.RunsOut 1 ∧ u.turn.val = (u.pollInput.1, some .quit)) ∧
      twoWaits.mainLoop.val.2 = .quit ∧ twoWaits.mainLoop.val.1.machine.pc = 0x202 ∧
      twoWaits.mainLoop.val.1.cycles = 2 := by
  intro t u
  obtain ⟨hcycle, hturn, hloop⟩ := key_wait_restarts
  -- one evaluation of the run for all that is read off it
  obtain ⟨hawaits, hgoesOn, hrunsOut, ⟨hshown, halive⟩, hpc, hcycles⟩ :
      twoWaits.AwaitsKey 0 ∧ (turns 1 twoWaits).val.2 = none ∧ t.RunsOut 1 ∧
        (t.quitting.displayed.2 = none ∧ Display.alive t.quitting.displayed.1 = true) ∧
        t.machine.pc = 0x202 ∧ t.cycles = 1 := by
    decide +kernel
  have hpressed := (hcycle twoWaits 0 hawaits).pressed 7 rfl (by decide)
  have hbetween : ∀ a ∈ ([.send .pause] : List (Action HeldKeys FrameCounter)), a.BetweenTurns := by
    intro a ha
    rw [List.mem_singleton.1 ha]
    trivial
  obtain ⟨-, hnext, -⟩ := (hturn t 1 hrunsOut).next _ hbetween
  have hfirst : (turns 1 twoWaits).val = (t, none) := by rw [← hgoesOn]
  have hquits : twoWaits.LoopQuits 1 t 1 := hloop twoWaits t 1 1 (by decide) hfirst hrunsOut
  obtain ⟨-, hquit⟩ := hquits.next hshown halive
  rw [if_pos (by decide)] at hquit
  refine ⟨⟨hawaits, hpressed⟩, ⟨hrunsOut, hnext⟩, hquit.2, ?_, ?_⟩
  · rw [hquits.waiting.pc, hpc]
  · rw [hquits.waiting.cycles, hcycles]

/-- LD V0, K without a press, on a display whose first call fails, and a cleared screen that was not shown -/
def unshown : Interpreter HeldKeys FrameCounter :=
  let s := tenTurns [0xF0, 0x0A] [] ⟨0, none, some (1, "screen gone"), none⟩
  { s with machine := s.machine.clearScreen }

/-- a loop that comes to its last wait may fail all the same: the display is asked once more in that turn -/
theorem last_wait_can_fail :
    ¬ ∀ (s t : Interpreter HeldKeys FrameCounter) (n : Nat) (x : Register),
      n < s.limit → (turns n s).val = (t, none) → t.RunsOut x → ∀ f, s.mainLoop.val.2 ≠ .failed f := by
  intro h
  obtain ⟨hrunsOut, hfails⟩ : unshown.RunsOut 0 ∧ unshown.mainLoop.val.2 = .failed (.io "screen gone") := by
    decide +kernel
  exact h unshown unshown 0 0 (by decide) rfl hrunsOut _ hfails

end

end Interpreter

end Chip8
