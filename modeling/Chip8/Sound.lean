/-
Tone devices. A `Beeper` drives a speaker by its edges: it is called on every tick of a timer, and touches the speaker
only when the tone changes, so a call that the speaker refuses changes nothing and can be made again. A `Speaker` is
what a timer holds: nothing audible, a beeper, or a recorder whose answers are given in advance.
-/
import Chip8.Journal

namespace Chip8

structure Beeper where
  pitch : UInt16
  beeping : Bool
  deriving DecidableEq, Repr

namespace Beeper

/-- the usual pitch, the note C -/
def defaultPitch : UInt16 := 2093

def ofPitch (pitch : UInt16) : Beeper :=
  ⟨pitch, false⟩

/-- what a call on a beeper comes to: the beeper afterwards, the frequency sent to the speaker, if any, and why the
speaker refused it, if it did -/
structure Call where
  beeper : Beeper
  sent : Option UInt16
  refusal : Option String
  deriving DecidableEq, Repr

/-- switch the tone on or off, on a speaker that refuses for the given reason, if any -/
def switch (b : Beeper) (on : Bool) (refusal : Option String) : Call :=
  if b.beeping = on then ⟨b, none, none⟩
  else
    match refusal with
    | some why => ⟨b, none, some why⟩
    | none => ⟨{ b with beeping := on }, some (if on then b.pitch else 0), none⟩

end Beeper

inductive Speaker where
  | mute
  /-- a beeper on a speaker that refuses nothing -/
  | beeper (b : Beeper)
  /-- keeps a record of the calls, and answers them as given: first the answers in the list, then always the last one;
  an answer is why the call is refused, or none -/
  | recorder (answers : List (Option String)) (later : Option String)
  deriving DecidableEq, Repr

namespace Speaker

def recording : Speaker :=
  recorder [] none

/-- switch the tone; the value is the speaker afterwards and why it refused the call, if it did -/
def switch (on : Bool) : Speaker → Noted (Speaker × Option String)
  | mute => pure (mute, none)
  | beeper b =>
    let call := b.switch on none
    ⟨(beeper call.beeper, none), call.sent.toList.map .frequency⟩
  | recorder [] later => ⟨(recorder [] later, later), [.tone on]⟩
  | recorder (answer :: answers) later => ⟨(recorder answers later, answer), [.tone on]⟩

end Speaker

end Chip8
