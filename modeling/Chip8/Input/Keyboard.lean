/-
A keyboard in front of the keypad: the left-hand side of a qwerty keyboard, laid out like the hexadecimal keypad. Escape
quits; three function keys are the debugger's pause, resume and step.
-/
import Chip8.Input

namespace Chip8

inductive Key where
  | char (c : Char)
  | escape
  | function (n : Nat)
  | other
  deriving DecidableEq, Repr

/-- the keyboard's state: keypad keys that are held, whether commands have somewhere to go, whether to quit -/
structure Keyboard where
  held : Keypad
  attached : Bool
  quit : Bool
  deriving DecidableEq

/-- what one key comes to: the keyboard afterwards, the keypad key if it was one, the command if it was one -/
structure Keystroke where
  keyboard : Keyboard
  key : Option UInt8
  command : Option Command
  deriving DecidableEq

namespace Keyboard

def fresh (attached : Bool) : Keyboard :=
  ⟨.released, attached, false⟩

/-- the keypad key of a lower-case character -/
def layout : List (Char × UInt8) :=
  [('x', 0x0), ('1', 0x1), ('2', 0x2), ('3', 0x3), ('q', 0x4), ('w', 0x5), ('e', 0x6), ('a', 0x7),
    ('s', 0x8), ('d', 0x9), ('z', 0xA), ('c', 0xB), ('4', 0xC), ('r', 0xD), ('f', 0xE), ('v', 0xF)]

/-- the keypad key of a character; ASCII letters count in both cases -/
def keyOf? (c : Char) : Option UInt8 :=
  layout.lookup c.toLower

def commandOf? : Nat → Option Command
  | 1 => some .pause
  | 2 => some .resume
  | 3 => some .step
  | _ => none

def press (k : Keyboard) : Key → Keystroke
  | .char c =>
    match keyOf? c with
    | some key => ⟨{ k with held := (k.held.set key true).toOption.getD k.held }, some key, none⟩
    | none => ⟨k, none, none⟩
  | .escape => ⟨{ k with quit := true }, none, none⟩
  | .function n => ⟨k, none, if k.attached then commandOf? n else none⟩
  | .other => ⟨k, none, none⟩

/-- once the user has quit there is no key to wait for; before that the answer hangs on keys that are yet to come -/
def awaitQuit? (k : Keyboard) : Option (Option UInt8) :=
  if k.quit then some none else none

end Keyboard

end Chip8
