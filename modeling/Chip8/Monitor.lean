/-
The monitor stands in front of every cycle: breakpoints, pause, resume and single steps. Commands wait in a queue until
the monitor is asked whether a cycle may run (`permit`). Pauses and faults are reported to a subscriber whose queue
holds at most 64 events.

A run that was resumed at an address may pass the breakpoint there, once: the exemption is spent by the next question
in the running state, whatever address it is about.
-/
import Chip8.Journal

namespace Chip8

inductive RunState where
  | running
  | paused
  /-- paused, but one more cycle may run -/
  | stepArmed
  deriving DecidableEq, Repr

/-- breakpoints, run state, the queue of commands and the subscriber's queue of events, both oldest first -/
structure Monitor where
  breakpoints : List UInt16
  state : RunState
  /-- where the machine was resumed, until the next question -/
  resumedAt : Option UInt16
  commands : List Command
  /-- what the subscriber has not read yet; none without a subscriber -/
  events : Option (List Event)
  deriving DecidableEq, Repr

namespace Monitor

/-- how many events wait for a subscriber; later ones are dropped -/
def eventCapacity : Nat := 64

/-- running, with no breakpoint and nobody listening -/
def fresh : Monitor :=
  ⟨[], .running, none, [], none⟩

def isActive (m : Monitor) : Bool :=
  m.state ≠ .running

/-! ## The debugger's side -/

def send (m : Monitor) (cmd : Command) : Monitor :=
  { m with commands := m.commands ++ [cmd] }

def sendAll (m : Monitor) (cmds : List Command) : Monitor :=
  { m with commands := m.commands ++ cmds }

/-- start listening; a listener from before hears nothing more -/
def subscribe (m : Monitor) : Monitor :=
  { m with events := some [] }

def unsubscribe (m : Monitor) : Monitor :=
  { m with events := none }

def drainEvents (m : Monitor) : Option (List Event) × Monitor :=
  (m.events, { m with events := m.events.map fun _ => [] })

/-! ## Breakpoints -/

def setBreakpoint (m : Monitor) (addr : UInt16) : Monitor :=
  { m with breakpoints := m.breakpoints.insert addr }

def clearBreakpoint (m : Monitor) (addr : UInt16) : Monitor :=
  { m with breakpoints := m.breakpoints.filter (· ≠ addr) }

def isBreakpoint (m : Monitor) (addr : UInt16) : Bool :=
  m.breakpoints.contains addr

/-! ## Events -/

/-- report an event; a full queue drops it, and without a subscriber it is lost -/
def publish (m : Monitor) (event : Event) : Noted Monitor :=
  match m.events with
  | none => pure m
  | some waiting =>
    if waiting.length < eventCapacity then pure { m with events := some (waiting ++ [event]) }
    else do
      Noted.note (.eventDropped event)
      pure m

/-- pause, and say so -/
def pauseAt (m : Monitor) (pc : UInt16) : Noted Monitor := do
  Noted.note (.paused pc)
  { m with state := .paused }.publish (.paused pc)

def reportFault (m : Monitor) (pc : UInt16) (f : Fault) : Noted Monitor :=
  m.publish (.fault pc f)

/-- pause because the machine cannot get past `pc` -/
def halt (m : Monitor) (pc : UInt16) : Noted Monitor :=
  if m.state = .paused then pure m else m.pauseAt pc

/-! ## The cycle's side -/

/-- carry out one command, with the machine about to run the instruction at `pc` -/
def apply (m : Monitor) (pc : UInt16) : Command → Noted Monitor
  | .setBreakpoint addr => pure (m.setBreakpoint addr)
  | .clearBreakpoint addr => pure (m.clearBreakpoint addr)
  | .pause => if m.state = .running then m.pauseAt pc else pure m
  | .resume =>
    if m.state = .running then pure m
    else do
      Noted.note (.resumed pc)
      pure { m with state := .running, resumedAt := some pc }
  | .step =>
    match m.state with
    | .paused => pure { m with state := .stepArmed }
    | .stepArmed => pure m
    | .running => do
      Noted.note .stepIgnored
      pure m

def applyAll (pc : UInt16) : List Command → Monitor → Noted Monitor
  | [], m => pure m
  | cmd :: cmds, m => do
    let m ← m.apply pc cmd
    applyAll pc cmds m

def poll (m : Monitor) (pc : UInt16) : Noted Monitor :=
  applyAll pc m.commands { m with commands := [] }

/-- with no command waiting, may the cycle at `pc` run? -/
def verdict (m : Monitor) (pc : UInt16) : Noted (Bool × Monitor) :=
  match m.state with
  | .running =>
    let spent := { m with resumedAt := none }
    if m.resumedAt = some pc then pure (true, spent)
    else if m.isBreakpoint pc then do
      let held ← spent.pauseAt pc
      pure (false, held)
    else pure (true, spent)
  | .paused => pure (false, m)
  | .stepArmed => pure (true, m)

/-- carry out the queued commands, then say whether the cycle at `pc` may run -/
def permit (m : Monitor) (pc : UInt16) : Noted (Bool × Monitor) := do
  let m ← m.poll pc
  m.verdict pc

/-- after a cycle that was let run: a single step is over -/
def endCycle (m : Monitor) : Monitor :=
  if m.state = .stepArmed then { m with state := .paused } else m

end Monitor

end Chip8
