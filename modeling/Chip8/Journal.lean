/-
The journal: what happens during an operation, in order. `Noted α` is a value together with the notes made on the way
to it; binding two of them appends their notes, so a proof about values can forget the notes (`val_bind`) and a proof
about notes can follow them alone (`notes_bind`). Some notes have a line in the log, the others are what a device or a
reader of the run gets to see.
-/
import Chip8.Fault
import Chip8.Instruction
import Chip8.Monitor.Message
import Chip8.Screen

namespace Chip8

open Chip8.Text

/-- one thing that happened -/
inductive Note where
  /-- an instruction is about to be executed -/
  | executing (pc opcode : UInt16) (ins : Instruction)
  | timerStarted (name : String) (value : UInt8)
  | timerCancelled (name : String) (value : UInt8)
  /-- a tone device that keeps a record was called -/
  | tone (on : Bool)
  /-- a speaker was set to a frequency; zero is silence -/
  | frequency (hertz : UInt16)
  | toneRefused (on : Bool) (why : String)
  | paused (pc : UInt16)
  | resumed (pc : UInt16)
  | stepIgnored
  | eventDropped (event : Event)
  /-- a command came for a monitor that is no more -/
  | commandDropped (command : Command)
  /-- a fault other than the one before it -/
  | fault (pc : UInt16) (fault : Fault)
  | fatal (pc : UInt16) (fault : Fault)
  | stuck (pc : UInt16)
  | rendered (frame : Screen)
  | limitReached (iterations : Nat)
  | quitRequested
  | displayClosed
  deriving DecidableEq

inductive Level where
  | trace
  | debug
  | info
  | warn
  | error
  deriving DecidableEq, Repr

def Level.text : Level → String
  | trace => "TRACE"
  | debug => "DEBUG"
  | info => "INFO"
  | warn => "WARN"
  | error => "ERROR"

def addrText (addr : UInt16) : String :=
  "0x" ++ Hex.lower 4 addr.toNat

namespace Note

/-- the line of a note in the log, if it has one -/
def line? : Note → Option (Level × String)
  | executing pc opcode ins =>
    some (.trace, Hex.lower 4 pc.toNat ++ ": " ++ Hex.lower 4 opcode.toNat ++ " " ++ ins.mnemonic)
  | timerStarted name value => some (.debug, name ++ " timer started at " ++ Nat.repr value.toNat)
  | timerCancelled name value => some (.debug, name ++ " timer cancelled at " ++ Nat.repr value.toNat)
  | tone _ | frequency _ | rendered _ => none
  | toneRefused on why => some (.warn, "can't switch tone " ++ (if on then "on" else "off") ++ ": " ++ why)
  | paused pc => some (.debug, "monitor paused at " ++ addrText pc)
  | resumed pc => some (.debug, "monitor resumed at " ++ addrText pc)
  | stepIgnored => some (.debug, "step ignored while running")
  | eventDropped event => some (.debug, "event queue full, dropping " ++ event.text)
  | commandDropped command => some (.warn, "monitor has gone away, dropping " ++ command.text)
  | fault pc f => some (.warn, "fault at " ++ addrText pc ++ ": " ++ f.message)
  | fatal pc f => some (.error, "fatal at " ++ addrText pc ++ ": " ++ f.message)
  | stuck pc => some (.warn, "no way past " ++ addrText pc ++ ", pausing")
  | limitReached n => some (.info, "stopping after " ++ Nat.repr n ++ " iterations")
  | quitRequested => some (.info, "quit requested")
  | displayClosed => some (.info, "display closed")

/-- the calls on a recording tone device among the notes, in order -/
def tones (notes : List Note) : List Bool :=
  notes.filterMap fun
    | tone on => some on
    | _ => none

def frames (notes : List Note) : List Screen :=
  notes.filterMap fun
    | rendered frame => some frame
    | _ => none

/-- the log: level and text of every note that has a line -/
def log (notes : List Note) : List String :=
  notes.filterMap fun note => note.line?.map fun (level, text) => level.text ++ " " ++ text

end Note

/-! ## Values with notes -/

/-- a value and the notes made on the way to it, oldest first -/
structure Noted (α : Type) where
  val : α
  notes : List Note

namespace Noted

instance : Monad Noted where
  pure a := ⟨a, []⟩
  bind x f :=
    match x with
    | ⟨a, notes⟩ =>
      match f a with
      | ⟨b, more⟩ => ⟨b, notes ++ more⟩

@[ext] theorem ext {α : Type} {x y : Noted α} (hv : x.val = y.val) (hn : x.notes = y.notes) : x = y := by
  cases x
  cases y
  rw [Noted.mk.injEq]
  exact ⟨hv, hn⟩

def note (n : Note) : Noted Unit :=
  ⟨(), [n]⟩

@[simp] theorem val_pure {α : Type} (a : α) : (pure a : Noted α).val = a := rfl

@[simp] theorem notes_pure {α : Type} (a : α) : (pure a : Noted α).notes = [] := rfl

@[simp] theorem val_bind {α β : Type} (x : Noted α) (f : α → Noted β) : (x >>= f).val = (f x.val).val := rfl

@[simp] theorem notes_bind {α β : Type} (x : Noted α) (f : α → Noted β) :
    (x >>= f).notes = x.notes ++ (f x.val).notes := rfl

@[simp] theorem val_map {α β : Type} (g : α → β) (x : Noted α) : (g <$> x).val = g x.val := rfl

@[simp] theorem notes_map {α β : Type} (g : α → β) (x : Noted α) : (g <$> x).notes = x.notes :=
  List.append_nil _

instance : LawfulMonad Noted :=
  LawfulMonad.mk' Noted (fun x => ext rfl (notes_map id x)) (fun _ _ => rfl)
    (fun x f g => ext rfl (List.append_assoc x.notes (f x.val).notes (g (f x.val).val).notes))

@[simp] theorem val_note (n : Note) : (note n).val = () := rfl

@[simp] theorem notes_note (n : Note) : (note n).notes = [n] := rfl

end Noted

end Chip8
