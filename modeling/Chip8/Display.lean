/-
Displays. A display is shown the screen whenever it changed, and says whether it is still there. `FrameCounter` is a
display for runs without a terminal: it counts what it was shown and keeps the last frame, can fail once, and can go
away after some frames.
-/
import Chip8.Screen

namespace Chip8

/-- devices that show the screen -/
class Display (δ : Type) where
  /-- show a screen; why it failed, if it did -/
  render : δ → Screen → δ × Option String
  alive : δ → Bool

structure FrameCounter where
  renders : Nat
  last : Option Screen
  /-- the call that fails, counted from one, and why -/
  failure : Option (Nat × String)
  lifetime : Option Nat
  deriving DecidableEq

namespace FrameCounter

/-- never fails and never goes away -/
def steady : FrameCounter :=
  ⟨0, none, none, none⟩

def render (d : FrameCounter) (frame : Screen) : FrameCounter × Option String :=
  let d := { d with renders := d.renders + 1 }
  match d.failure with
  | some (call, why) => if d.renders = call then (d, some why) else ({ d with last := some frame }, none)
  | none => ({ d with last := some frame }, none)

def alive (d : FrameCounter) : Bool :=
  match d.lifetime with
  | some n => d.renders < n
  | none => true

instance : Display FrameCounter where
  render := render
  alive := alive

end FrameCounter

end Chip8
