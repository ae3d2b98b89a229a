/-
Countdown timers. A timer holds a byte and, while it counts, a task that takes the ticks of a clock: each tick makes the
value one less, and the task ends by itself at zero. Setting a value gives up the old task before it starts another. A
disabled timer has no task and is plain storage. A timer with a speaker has the tone on at each tick and off when the
count is over.

A tick is delivered and taken in one go (`tick`), so between operations no tick is pending.
-/
import Chip8.Sound

namespace Chip8

/-- how far a task is -/
inductive CountTask where
  | counting
  /-- ended by itself, and not yet put away -/
  | spent
  deriving DecidableEq, Repr

/-- a byte that runs itself down to zero once set -/
structure Countdown where
  name : String
  speaker : Option Speaker
  value : UInt8
  disabled : Bool
  task : Option CountTask
  deriving DecidableEq, Repr

inductive Clock where
  | manual
  /-- ticks by itself, sixty times a second -/
  | wall
  deriving DecidableEq, Repr

namespace Countdown

def hertz : Nat := 60

/-- nanoseconds from one tick to the next -/
def period : Nat := 1000000000 / hertz

def silent (name : String) : Countdown :=
  ⟨name, none, 0, false, none⟩

/-- a timer at zero that holds a tone while it counts -/
def sounding (name : String) (speaker : Speaker) : Countdown :=
  ⟨name, some speaker, 0, false, none⟩

def running (t : Countdown) : Bool :=
  t.task = some .counting

/-! ## The tone -/

/-- switch the tone, if the timer has one; the value also tells why the speaker refused, if it did -/
def switchTone (t : Countdown) (on : Bool) : Noted (Countdown × Option String) :=
  match t.speaker with
  | none => pure (t, none)
  | some speaker => do
    let (speaker, refusal) ← speaker.switch on
    pure ({ t with speaker := some speaker }, refusal)

/-- switch the tone off and note a refusal -/
def toneOff (t : Countdown) : Noted Countdown := do
  let (t, refusal) ← t.switchTone false
  match refusal with
  | none => pure t
  | some why => do
    Noted.note (.toneRefused false why)
    pure t

/-! ## Counting -/

def start (t : Countdown) : Noted Countdown := do
  Noted.note (.timerStarted t.name t.value)
  pure { t with task := some .counting }

/-- give up the task, if there is one, counting or spent -/
def cancel (t : Countdown) : Noted Countdown :=
  match t.task with
  | none => pure t
  | some _ => do
    Noted.note (.timerCancelled t.name t.value)
    pure { t with task := none }

/-- what the task does at a tick: count one down with the tone on; with the last one the tone goes off and the task
ends. At zero there is nothing left to count. A refusal of the speaker is the task's own business. -/
def countOne (t : Countdown) : Noted Countdown :=
  if t.value = 0 then do
    let (t, _) ← t.switchTone false
    pure { t with task := some .spent }
  else if t.value = 1 then do
    let (t, _) ← { t with value := 0 }.switchTone true
    let (t, _) ← t.switchTone false
    pure { t with task := some .spent }
  else do
    let (t, _) ← { t with value := t.value - 1 }.switchTone true
    pure t

def tick (t : Countdown) : Noted Countdown :=
  if t.running then t.countOne else pure t

def ticks : Nat → Countdown → Noted Countdown
  | 0, t => pure t
  | n + 1, t => do
    let t ← t.tick
    ticks n t

/-! ## Operations -/

/-- store a value and, unless disabled, start counting from it; at zero there is nothing to count and the tone goes
off -/
def set (t : Countdown) (value : UInt8) : Noted Countdown := do
  let t ← t.cancel
  let t := { t with value := value }
  if t.disabled then pure t
  else if value = 0 then t.toneOff
  else t.start

/-- stop counting; from now on the timer is plain storage -/
def disable (t : Countdown) : Noted Countdown := do
  let t ← t.cancel
  pure { t with disabled := true }

/-- count again, from the value there is, if nothing has been started since -/
def enable (t : Countdown) : Noted Countdown :=
  let t := { t with disabled := false }
  if t.value > 0 ∧ t.task = none then t.start else pure t

/-- wait until the countdown has come to its end and put the task away. The wall clock brings the ticks that are
missing; on a manual clock nobody does, and there is no outcome while the timer counts. -/
def waitExpired (t : Countdown) : Clock → Option (Noted Countdown)
  | .wall => some do
    let t ← t.ticks t.value.toNat
    pure { t with task := none }
  | .manual => if t.running then none else some (pure { t with task := none })

/-- let go of the timer: give up the task and leave the tone off -/
def release (t : Countdown) : Noted Countdown := do
  let t ← t.cancel
  t.toneOff

end Countdown

structure Timers where
  delay : Countdown
  sound : Countdown
  deriving DecidableEq, Repr

namespace Timers

/-- both at zero, the sound timer on a speaker -/
def onSpeaker (speaker : Speaker) : Timers :=
  ⟨.silent "delay", .sounding "sound" speaker⟩

def disabled : Timers :=
  let timers := onSpeaker .mute
  ⟨timers.delay.disable.val, timers.sound.disable.val⟩

def ticks (n : Nat) (timers : Timers) : Noted Timers := do
  let delay ← timers.delay.ticks n
  let sound ← timers.sound.ticks n
  pure ⟨delay, sound⟩

end Timers

end Chip8
