/-
Input devices. A device is polled once per turn of the main loop: it refreshes the keypad, may have commands for the
monitor, and says whether to carry on. It is also asked to wait for a key press; no key means that the user quits, and
the next poll then says so. `HeldKeys` is the simplest device: some keys are held down all the time and some presses
are handed out one at a time.
-/
import Chip8.Keypad
import Chip8.Monitor.Message

namespace Chip8

structure Polled (σ : Type) where
  device : σ
  keypad : Keypad
  commands : List Command
  /-- carry on? or why the device failed -/
  result : Except String Bool

structure Awaited (σ : Type) where
  device : σ
  /-- the key, none when the user quits, or why the device failed -/
  result : Except String (Option UInt8)

/-- devices that can be polled and waited for -/
class Input (σ : Type) where
  poll : σ → Keypad → Polled σ
  await : σ → Awaited σ

/-- keys that are held down for good, and presses to hand out; running out of presses counts as quitting -/
structure HeldKeys where
  keys : List UInt8
  presses : List UInt8
  quit : Bool
  deriving DecidableEq, Repr

namespace HeldKeys

def ofKeys (keys presses : List UInt8) : HeldKeys :=
  ⟨keys, presses, false⟩

/-- press keys one after the other, up to the first that is not on the keypad -/
def pressAll (pad : Keypad) : List UInt8 → Keypad × Except String Unit
  | [] => (pad, .ok ())
  | key :: keys =>
    match pad.set key true with
    | .ok pad => pressAll pad keys
    | .error f => (pad, .error f.message)

/-- hold exactly the device's keys down -/
def poll (d : HeldKeys) (_ : Keypad) : Polled HeldKeys :=
  let (pad, pressed) := pressAll .released d.keys
  ⟨d, pad, [], pressed.map fun _ => !d.quit⟩

def await (d : HeldKeys) : Awaited HeldKeys :=
  match d.presses with
  | [] => ⟨{ d with quit := true }, .ok none⟩
  | key :: keys => ⟨{ d with presses := keys }, .ok (some key)⟩

instance : Input HeldKeys where
  poll := poll
  await := await

end HeldKeys

end Chip8
