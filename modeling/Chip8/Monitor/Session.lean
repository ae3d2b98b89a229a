/-
A debugger's session: a monitor, the handle that the debugger took from it, and the subscription it holds. The monitor
can be replaced by a new one while the debugger keeps handle and subscription: the handle then leads nowhere, and the
subscription still gives the events that waited in it.
-/
import Chip8.Monitor

namespace Chip8

structure Session where
  monitor : Monitor
  /-- does the handle still lead to the monitor? -/
  attached : Bool
  /-- events that wait in a subscription to a monitor that is no more -/
  leftover : Option (List Event)
  deriving DecidableEq, Repr

namespace Session

/-- a new monitor with a handle, not subscribed -/
def fresh : Session :=
  ⟨.fresh, true, none⟩

def send (s : Session) (cmd : Command) : Noted Session :=
  if s.attached then pure { s with monitor := s.monitor.send cmd }
  else do
    Noted.note (.commandDropped cmd)
    pure s

/-- listen to the monitor there is now -/
def subscribe (s : Session) : Session :=
  { s with monitor := s.monitor.subscribe, leftover := none }

def unsubscribe (s : Session) : Session :=
  { s with monitor := s.monitor.unsubscribe, leftover := none }

/-- read what waits in the subscription; none without one -/
def drainEvents (s : Session) : Option (List Event) × Session :=
  match s.leftover with
  | some events => (some events, { s with leftover := some [] })
  | none =>
    let (events, monitor) := s.monitor.drainEvents
    (events, { s with monitor := monitor })

def replaceMonitor (s : Session) : Session where
  monitor := .fresh
  attached := false
  leftover := s.leftover <|> s.monitor.events

end Session

end Chip8
