/-
The command line. Options may stand before and after the program's path; long options take their value after an equals
sign or as the next argument, short options can be run together and take the rest of their argument as value. After
`--` everything is a path.

An option that still wants its value is kept pending, together with what it got so far: it is settled when the next
option or path begins, or at the end. A value that does not read is noticed only then; an argument that is no option
and has no place is noticed first.
-/
import Chip8.Address
import Chip8.Config

namespace Chip8

open Chip8.Text

inductive UsageError where
  | missingPath
  | unknownArgument
  | missingValue
  | badValue
  | repeated
  | unwantedValue
  | helpAsked
  | versionAsked
  deriving DecidableEq, Repr

structure Options where
  path : String
  mute : Bool
  pitch : UInt16
  rate : UInt64
  seed : Option UInt64
  breakpoints : List UInt16
  paused : Bool
  maxCycles : Option UInt64
  deriving DecidableEq, Repr

def Options.config (o : Options) : Config :=
  { Config.default with
    tonePitch := o.pitch
    mute := o.mute
    seed := o.seed
    breakpoints := o.breakpoints
    startPaused := o.paused
    maxCycles := o.maxCycles }.withRate o.rate

namespace CommandLine

inductive Flag where
  | mute
  | paused
  | help
  | version
  deriving DecidableEq, Repr

/-- what takes a value; the path is one of them -/
inductive Slot where
  | path
  | pitch
  | rate
  | seed
  | breakpoint
  | maxCycles
  deriving DecidableEq, Repr

/-- options by their long names -/
def long? : String → Option (Flag ⊕ Slot)
  | "mute" => some (.inl .mute)
  | "paused" => some (.inl .paused)
  | "help" => some (.inl .help)
  | "version" => some (.inl .version)
  | "pitch" => some (.inr .pitch)
  | "ips" => some (.inr .rate)
  | "seed" => some (.inr .seed)
  | "break" => some (.inr .breakpoint)
  | "max-cycles" => some (.inr .maxCycles)
  | _ => none

/-- options by their letters -/
def short? : Char → Option (Flag ⊕ Slot)
  | 'p' => some (.inl .paused)
  | 'h' => some (.inl .help)
  | 'V' => some (.inl .version)
  | 'b' => some (.inr .breakpoint)
  | _ => none

/-- what has been settled so far -/
structure Settled where
  path : Option String
  mute : Bool
  pitch : Option UInt16
  rate : Option UInt64
  seed : Option UInt64
  breakpoints : List UInt16
  paused : Bool
  maxCycles : Option UInt64
  deriving DecidableEq, Repr

/-- the state between two arguments -/
structure State where
  settled : Settled
  /-- an option or path that is not settled yet, and its value if it has one -/
  pending : Option (Slot × Option String)
  pathSeen : Bool
  pathsOnly : Bool
  deriving DecidableEq, Repr

def State.start : State :=
  ⟨⟨none, false, none, none, none, [], false, none⟩, none, false, false⟩

/-! ## Values -/

def readWord64 (text : String) : Except UsageError UInt64 :=
  match readUnsigned 10 (UInt64.size - 1) text.toList with
  | .ok n => .ok n.toUInt64
  | .error _ => .error .badValue

/-- a number of 16 bits; read as a signed number first, so that `-0` is zero -/
def readWord16 (text : String) : Except UsageError UInt16 :=
  match readInt64 10 text.toList with
  | .ok n => if 0 ≤ n ∧ n ≤ 0xFFFF then .ok n.toNat.toUInt16 else .error .badValue
  | .error _ => .error .badValue

/-- a value goes into a place that is still free -/
def once {α : Type} (old : Option α) (value : Except UsageError α) : Except UsageError (Option α) :=
  if old.isSome then .error .repeated else value.map some

def Settled.put (s : Settled) (slot : Slot) (text : String) : Except UsageError Settled :=
  match slot with
  | .path => if text = "" then .error .missingValue else .ok { s with path := some text }
  | .pitch => (once s.pitch (readWord16 text)).map fun v => { s with pitch := v }
  | .rate => (once s.rate (readWord64 text)).map fun v => { s with rate := v }
  | .seed => (once s.seed (readWord64 text)).map fun v => { s with seed := v }
  | .maxCycles => (once s.maxCycles (readWord64 text)).map fun v => { s with maxCycles := v }
  | .breakpoint =>
    match Address.parse text with
    | .ok addr => .ok { s with breakpoints := s.breakpoints ++ [addr] }
    | .error _ => .error .badValue

def State.settle (s : State) : Except UsageError State :=
  match s.pending with
  | none => .ok s
  | some (_, none) => .error .missingValue
  | some (slot, some text) =>
    (s.settled.put slot text).map fun settled => { s with settled := settled, pending := none }

/-! ## Arguments -/

/-- a flag is settled at once, after what was pending -/
def State.raise (s : State) (flag : Flag) : Except UsageError State := do
  let s ← s.settle
  match flag with
  | .help => .error .helpAsked
  | .version => .error .versionAsked
  | .mute => if s.settled.mute then .error .repeated else .ok { s with settled := { s.settled with mute := true } }
  | .paused =>
    if s.settled.paused then .error .repeated else .ok { s with settled := { s.settled with paused := true } }

/-- an option that takes a value begins; a value that came with it is settled at once -/
def State.expect (s : State) (slot : Slot) (value : Option String) : Except UsageError State := do
  let s ← s.settle
  match value with
  | some text => (s.settled.put slot text).map fun settled => { s with settled := settled }
  | none => .ok { s with pending := some (slot, none) }

/-- the name and the value of a long option -/
def splitValue (cs : List Char) : String × Option String :=
  let name := cs.takeWhile (· ≠ '=')
  match cs.dropWhile (· ≠ '=') with
  | [] => (String.ofList name, none)
  | _ :: value => (String.ofList name, some (String.ofList value))

/-- a long option, without its dashes -/
def State.long (s : State) (cs : List Char) : Except UsageError State :=
  let (name, value) := splitValue cs
  match long? name, value with
  | none, _ => .error .unknownArgument
  | some (.inl _), some _ => .error .unwantedValue
  | some (.inl flag), none => s.raise flag
  | some (.inr slot), value => s.expect slot value

/-- the value of a short option in the rest of its argument; an equals sign before it is taken off -/
def attached : List Char → Option String
  | [] => none
  | '=' :: cs => some (String.ofList cs)
  | cs => some (String.ofList cs)

/-- short options run together -/
def State.shorts (s : State) : List Char → Except UsageError State
  | [] => .ok s
  | c :: cs =>
    match short? c with
    | none => .error .unknownArgument
    | some (.inl flag) =>
      match s.raise flag with
      | .ok s => s.shorts cs
      | .error e => .error e
    | some (.inr slot) => s.expect slot (attached cs)

/-- an argument that is no option: the value of a pending option that has none yet, or the path -/
def State.plain (s : State) (arg : String) : Except UsageError State :=
  match s.pending, s.pathsOnly with
  | some (slot, none), false => .ok { s with pending := some (slot, some arg) }
  | _, _ =>
    if s.pathSeen then .error .unknownArgument
    else s.settle.map fun s => { s with pending := some (.path, some arg), pathSeen := true }

def State.take (s : State) (arg : String) : Except UsageError State :=
  if s.pathsOnly then s.plain arg
  else
    match arg.toList with
    | ['-', '-'] => .ok { s with pathsOnly := true }
    | '-' :: '-' :: cs => s.long cs
    | '-' :: c :: cs => s.shorts (c :: cs)
    | _ => s.plain arg

def State.takeAll (s : State) : List String → Except UsageError State
  | [] => .ok s
  | arg :: args =>
    match s.take arg with
    | .ok s => s.takeAll args
    | .error e => .error e

def defaultRate : UInt64 := 500

def parse (args : List String) : Except UsageError Options := do
  let s ← State.start.takeAll args
  let s ← s.settle
  match s.settled.path with
  | none => .error .missingPath
  | some path =>
    .ok {
      path := path
      mute := s.settled.mute
      pitch := s.settled.pitch.getD Beeper.defaultPitch
      rate := s.settled.rate.getD defaultRate
      seed := s.settled.seed
      breakpoints := s.settled.breakpoints
      paused := s.settled.paused
      maxCycles := s.settled.maxCycles }

end CommandLine

end Chip8
