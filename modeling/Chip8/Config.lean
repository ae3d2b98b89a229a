/-
Settings of a run. Everything has a default; the command line and embedders fill in what they want different.
-/
import Chip8.Sound

namespace Chip8

structure Config where
  /-- nanoseconds to sleep after every turn of the main loop -/
  cycleDelay : Nat
  tonePitch : UInt16
  /-- no tone at all; the sound timer counts all the same -/
  mute : Bool
  seed : Option UInt64
  disableDelay : Bool
  disableSound : Bool
  breakpoints : List UInt16
  startPaused : Bool
  /-- end the main loop after this many turns -/
  maxCycles : Option UInt64
  deriving DecidableEq, Repr

namespace Config

def second : Nat := 1000000000

def default : Config where
  cycleDelay := 2000000
  tonePitch := Beeper.defaultPitch
  mute := false
  seed := none
  disableDelay := false
  disableSound := false
  breakpoints := []
  startPaused := false
  maxCycles := none

/-- the delay for a number of instructions per second, in whole nanoseconds; zero instructions means no delay -/
def withRate (c : Config) (rate : UInt64) : Config :=
  { c with cycleDelay := if rate = 0 then 0 else second / rate.toNat }

def speaker (c : Config) : Speaker :=
  if c.mute then .mute else .beeper (.ofPitch c.tonePitch)

end Config

end Chip8
