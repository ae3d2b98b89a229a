/-
A scripted input device: what each poll and each wait comes to is written down in advance. Polls beyond the script are
uneventful; a wait beyond it is a quit.
-/
import Chip8.Input

namespace Chip8

structure ScriptedPoll where
  /-- fail with this text, and do nothing else -/
  failure : Option String
  commands : List Command
  /-- the keys that are down from now on; none leaves the keypad as it is -/
  keys : Option (List UInt8)
  quit : Bool
  deriving DecidableEq, Repr

def ScriptedPoll.uneventful : ScriptedPoll :=
  ⟨none, [], none, false⟩

/-- polls and waits to come, and whether a wait was a quit -/
structure Script where
  polls : List ScriptedPoll
  /-- a key, none for a quit, or why the device fails -/
  waits : List (Except String (Option UInt8))
  quit : Bool

namespace Script

def poll (s : Script) (pad : Keypad) : Polled Script :=
  let entry := s.polls.headD .uneventful
  let rest := { s with polls := s.polls.tail }
  match entry.failure with
  | some why => ⟨rest, pad, [], .error why⟩
  | none =>
    let pad :=
      match entry.keys with
      | some keys => Keypad.ofKeys keys
      | none => pad
    ⟨rest, pad, entry.commands, .ok (!(entry.quit || s.quit))⟩

def await (s : Script) : Awaited Script :=
  let rest := { s with waits := s.waits.tail }
  match s.waits.headD (.ok none) with
  | .ok none => ⟨{ rest with quit := true }, .ok none⟩
  | result => ⟨rest, result⟩

instance : Input Script where
  poll := poll
  await := await

end Script

end Chip8
