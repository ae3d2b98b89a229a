/-
The interpreter: a machine with its monitor, an input device and a display. A turn of the main loop (`turn`) polls the
input, asks the monitor whether a cycle may run, runs it, reports a fault, and shows the screen if it changed. The loop
goes on until the input quits, the display is gone, a fault ends the run, or the limit is reached. Sleeping between
turns, at the pace of the settings, is for the one who runs the loop.
-/
import Chip8.Config
import Chip8.Display
import Chip8.Execute
import Chip8.Monitor

namespace Chip8

structure Interpreter (σ δ : Type) where
  machine : Machine
  monitor : Monitor
  input : σ
  display : δ
  config : Config
  /-- instructions executed so far, those that failed included -/
  cycles : Nat
  /-- recoverable faults so far -/
  faults : Nat
  /-- where the last recoverable fault was, and its message -/
  lastFault : Option (UInt16 × String)

/-- why the main loop ended -/
inductive Ending where
  | limit
  | quit
  | closed
  | failed (fault : Fault)
  deriving DecidableEq, Repr

namespace Interpreter

variable {σ δ : Type}

def configure (config : Config) (m : Machine) : Noted Machine := do
  let m := match config.seed with
    | some seed => m.reseed seed
    | none => m
  let m ← if config.disableDelay then m.disableDelay else pure m
  if config.disableSound then m.disableSound else pure m

def configureMonitor (config : Config) (mon : Monitor) : Monitor :=
  let mon := config.breakpoints.foldl Monitor.setBreakpoint mon
  if config.startPaused then mon.send .pause else mon

def create (m : Machine) (mon : Monitor) (input : σ) (display : δ) (config : Config) : Noted (Interpreter σ δ) := do
  let m ← configure config m
  pure ⟨m, configureMonitor config mon, input, display, config, 0, 0, none⟩

def load (s : Interpreter σ δ) (source : Memory.Source) : Except Fault (Interpreter σ δ) :=
  (s.machine.withMemory (s.machine.memory.loadFrom source)).map fun m => { s with machine := m }

/-- a program that arrives whole and fits is put into memory, and nothing else changes -/
theorem load_of_image {s : Interpreter σ δ} {source : Memory.Source} {image : List UInt8}
    (h : source.image = .ok image) (hlen : image.length ≤ Memory.maxProgram) :
    s.load source = .ok { s with machine := { s.machine with
      memory := ⟨Memory.place s.machine.memory.bytes Memory.programStart.toNat image⟩ } } := by
  rw [load, Memory.loadFrom, h, Except.bind, Memory.load_of_length_le hlen]
  rfl

/-! ## One cycle -/

/-- fetch, decode and execute one instruction, whatever the monitor says -/
def cycle [Input σ] (s : Interpreter σ δ) : Noted (Interpreter σ δ × Option Fault) :=
  match s.machine.fetch with
  | .error f => pure (s, some f)
  | .ok (opcode, fetched) =>
    match Instruction.decode opcode with
    | none =>
      pure ({ s with machine := fetched, cycles := s.cycles + 1 }, some (.invalidOpcode opcode s.machine.pc))
    | some ins => do
      Noted.note (.executing s.machine.pc opcode ins)
      let out ← execute ins fetched s.input
      pure ({ s with machine := out.machine, input := out.input, cycles := s.cycles + 1 }, out.fault)

/-- one cycle if the monitor lets it run; false when it does not -/
def step [Input σ] (s : Interpreter σ δ) : Noted (Interpreter σ δ × Except Fault Bool) := do
  let (permitted, monitor) ← s.monitor.permit s.machine.pc
  let s := { s with monitor := monitor }
  if permitted then do
    let (s, fault) ← s.cycle
    let s := { s with monitor := s.monitor.endCycle }
    match fault with
    | none => pure (s, .ok true)
    | some f => pure (s, .error f)
  else pure (s, .ok false)

/-! ## Faults -/

/-- is this the fault that was reported last? -/
def isRepeat (s : Interpreter σ δ) (pc : UInt16) (f : Fault) : Bool :=
  s.lastFault = some (pc, f.message)

def report (s : Interpreter σ δ) (pc : UInt16) (f : Fault) : Noted (Interpreter σ δ) :=
  if s.isRepeat pc f then pure s
  else do
    Noted.note (.fault pc f)
    let monitor ← s.monitor.reportFault pc f
    pure { s with monitor := monitor, lastFault := some (pc, f.message) }

/-- take a fault at `pc`: one that ends the run is handed back, any other is counted and reported. When the program
counter did not move, the same fault would come back for ever, so the machine is paused. -/
def takeFault (s : Interpreter σ δ) (pc : UInt16) (f : Fault) : Noted (Interpreter σ δ × Option Fault) :=
  if f.recoverable then do
    let s ← { s with faults := s.faults + 1 }.report pc f
    if s.machine.pc = pc then do
      Noted.note (.stuck pc)
      let monitor ← s.monitor.halt pc
      pure ({ s with monitor := monitor }, none)
    else pure (s, none)
  else do
    Noted.note (.fatal pc f)
    pure (s, some f)

/-! ## The main loop -/

/-- show the screen if it changed; why the display failed, if it did -/
def refresh [Display δ] (s : Interpreter σ δ) : Noted (Interpreter σ δ × Option String) :=
  let (changed, m) := s.machine.takeRedraw
  let s := { s with machine := m }
  if changed then
    let (display, failure) := Display.render s.display m.screen
    let s := { s with display := display }
    match failure with
    | none => do
      Noted.note (.rendered m.screen)
      pure (s, none)
    | some why => pure (s, some why)
  else pure (s, none)

/-- poll the input: keypad and commands arrive, whatever the answer is -/
def pollInput [Input σ] (s : Interpreter σ δ) : Interpreter σ δ × Except String Bool :=
  let polled := Input.poll s.input s.machine.keypad
  ({ s with
      machine := { s.machine with keypad := polled.keypad }
      monitor := s.monitor.sendAll polled.commands
      input := polled.device }, polled.result)

def guardedStep [Input σ] (s : Interpreter σ δ) : Noted (Interpreter σ δ × Option Fault) := do
  let pc := s.machine.pc
  let (s, result) ← s.step
  match result with
  | .ok _ => pure (s, none)
  | .error f => s.takeFault pc f

/-- one turn of the main loop, and why it is the last one, if it is -/
def turn [Input σ] [Display δ] (s : Interpreter σ δ) : Noted (Interpreter σ δ × Option Ending) :=
  let (s, answer) := s.pollInput
  match answer with
  | .error why => pure (s, some (.failed (.io why)))
  | .ok false => do
    Noted.note .quitRequested
    pure (s, some .quit)
  | .ok true => do
    let (s, fatal) ← s.guardedStep
    match fatal with
    | some f => pure (s, some (.failed f))
    | none => do
      let (s, failure) ← s.refresh
      match failure with
      | some why => pure (s, some (.failed (.io why)))
      | none =>
        if Display.alive s.display then pure (s, none)
        else do
          Noted.note .displayClosed
          pure (s, some .closed)

/-- at most `n` turns; no ending when they are over -/
def turns [Input σ] [Display δ] : Nat → Interpreter σ δ → Noted (Interpreter σ δ × Option Ending)
  | 0, s => pure (s, none)
  | n + 1, s => do
    let (s, ending) ← s.turn
    match ending with
    | some e => pure (s, some e)
    | none => turns n s

/-- the most turns of one run: the limit of the settings; without one, what a counter of 64 bits can count -/
def limit (s : Interpreter σ δ) : Nat :=
  match s.config.maxCycles with
  | some n => n.toNat
  | none => UInt64.size

def mainLoop [Input σ] [Display δ] (s : Interpreter σ δ) : Noted (Interpreter σ δ × Ending) := do
  let (s, ending) ← turns s.limit s
  match ending with
  | some e => pure (s, e)
  | none => do
    Noted.note (.limitReached s.limit)
    pure (s, .limit)

end Interpreter

end Chip8
