/-
The program: run a CHIP-8 image in a terminal. Frames are drawn over each other, warnings go to the error stream, and
keys are taken in line by line. Everything that is decided is decided by the library; here it meets the clock, the
terminal and the file.
-/
import Chip8.CommandLine
import Chip8.Terminal

namespace Chip8

def usage : String :=
  "Usage: chip8 [OPTIONS] <ROM>\n\n" ++
  "  -b, --break <ADDR>      break at this address (hex); may be repeated\n" ++
  "  -p, --paused            start paused at the entry point\n" ++
  "      --mute              no sound\n" ++
  "      --pitch <HZ>        tone frequency in Hz [default: 2093]\n" ++
  "      --ips <N>           instructions per second, 0 = as fast as possible [default: 500]\n" ++
  "      --seed <N>          seed for RND, for repeatable runs\n" ++
  "      --max-cycles <N>    stop after this many main loop iterations\n" ++
  "  -h, --help              print help\n" ++
  "  -V, --version           print version"

def UsageError.message : UsageError → String
  | missingPath => "the ROM is missing"
  | unknownArgument => "unexpected argument"
  | missingValue => "a value is required"
  | badValue => "invalid value"
  | repeated => "an option cannot be used multiple times"
  | unwantedValue => "unexpected value for an option"
  | helpAsked => usage
  | versionAsked => "chip8 0.1.0"

def Level.shown : Level → Bool
  | warn | error => true
  | _ => false

/-- how long a key counts as held, in milliseconds -/
def holdTime : Nat := 150

/-- show what a note has to show -/
def Note.show (note : Note) : IO Unit := do
  match note with
  | .rendered frame => IO.println ("\x1b[H" ++ frame.picture)
  | .frequency hertz => if hertz ≠ 0 then IO.print "\x07"
  | _ => pure ()
  match note.line? with
  | some (level, text) => if level.shown then IO.eprintln (level.text ++ " " ++ text)
  | none => pure ()

structure Play where
  run : Interpreter Script FrameCounter
  terminal : Terminal
  line : Task (Except IO.Error String)
  typedAt : Nat
  /-- ticks that the timers have had -/
  ticks : Nat
  turns : Nat

def readLine : IO (Task (Except IO.Error String)) := do
  let input ← IO.getStdin
  IO.asTask input.getLine

/-- take in a line that has come, and wait for the next one; the end of the input is the end of the run -/
def Play.takeLine (p : Play) (now : Nat) : IO Play := do
  match ← IO.wait p.line with
  | .ok "" | .error _ => pure { p with terminal := p.terminal.quit }
  | .ok text => pure { p with terminal := p.terminal.type text, line := ← readLine, typedAt := now }

/-- bring terminal and timers up to date -/
def Play.update (p : Play) (now : Nat) : IO Play := do
  let p ←
    if p.terminal.keyboard.quit then pure p
    else if (← IO.hasFinished p.line) || (p.run.wantsKey && p.terminal.presses.isEmpty) then p.takeLine now
    else pure p
  let p := if now - p.typedAt > holdTime then { p with terminal := p.terminal.release } else p
  let due := now * Countdown.hertz / 1000
  let ticked := p.run.machine.ticks (due - p.ticks)
  ticked.notes.forM Note.show
  pure { p with run := { p.run with machine := ticked.val }, ticks := due }

/-- turn after turn, at the pace of the settings -/
partial def Play.loop (p : Play) (start : Nat) : IO (Interpreter Script FrameCounter × Ending) := do
  if p.turns ≥ p.run.limit then return (p.run, .limit)
  let p ← p.update ((← IO.monoMsNow) - start)
  let turned := { p.run with input := p.terminal.script }.turn
  turned.notes.forM Note.show
  let (run, ending) := turned.val
  match ending with
  | some e => return (run, e)
  | none =>
    IO.sleep (run.config.cycleDelay / 1000000).toUInt32
    { p with run := run, terminal := p.terminal.after run.input, turns := p.turns + 1 }.loop start

def Options.play (o : Options) : IO UInt32 := do
  let image ← IO.FS.readBinFile o.path
  let seed ← IO.rand 0 (UInt64.size - 1)
  let config := o.config
  let m := Machine.fresh (.onSpeaker config.speaker) (.ofSeed seed.toUInt64)
  let run := (Interpreter.create m .fresh Terminal.fresh.script FrameCounter.steady config).val
  match run.load ⟨[image.toList], none⟩ with
  | .error f =>
    IO.eprintln f.message
    return 1
  | .ok run =>
    let start ← IO.monoMsNow
    let (run, ending) ← Play.loop ⟨run, .fresh, ← readLine, 0, 0, 0⟩ start
    if let some (pc, message) := run.lastFault then
      IO.eprintln (Nat.repr run.faults ++ " faults, last at " ++ addrText pc ++ ": " ++ message)
    match ending with
    | .failed f =>
      IO.eprintln f.message
      return 1
    | _ => return 0

end Chip8

def main (args : List String) : IO UInt32 := do
  match Chip8.CommandLine.parse args with
  | .ok options => options.play
  | .error e =>
    if e = .helpAsked ∨ e = .versionAsked then
      IO.println e.message
      return 0
    else
      IO.eprintln e.message
      return 2
