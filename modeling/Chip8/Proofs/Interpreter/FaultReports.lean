/-
What becomes of faults. Every recoverable fault of the main loop is counted, the last one is kept, and each one that is
not the one before it is published, in order. Cycles that go well may lie between two faults: a fault that comes back
after them is the same fault still.

In the turn of a fault, the pauses that its question published come first: those of commands that were carried out for
it. Then the fault is published, and then the pause of the halt, if the machine is stuck. So a fault comes before the
pause that it causes, but not before every pause of its turn.

Results:
- `Remembers.isRepeat_iff`: a fault is a repeat just when it is the one that is kept;
- `turn_published`: what a turn publishes, in order;
- `performAll_reported`: counting, keeping and publishing over any run;
- `faults_reported`: what is published, and what of it gets through;
- `drained_pause_comes_first`: a pause before the fault in the turn of both.
-/
import Mathlib.Data.List.Destutter
import Chip8.Proofs.FaultMessages
import Chip8.Proofs.Interpreter.Subscriber

namespace Chip8.Interpreter

open Monitor

/-- one more element at the end is left out just when it repeats the one before it -/
theorem destutter_concat_ne {α : Type} [DecidableEq α] (l : List α) (a : α) :
    (l ++ [a]).destutter (· ≠ ·) = l.destutter (· ≠ ·) ++ if l.getLast? = some a then [] else [a] := by
  cases l with
  | nil => rfl
  | cons b l =>
    rw [List.cons_append, List.destutter_cons', List.destutter_cons']
    -- on what follows the element kept last, since `destutter'` compares with that one
    induction l generalizing b with
    | nil => by_cases h : b = a <;> simp [h]
    | cons c l ih =>
      by_cases h : b = c
      · subst h
        simpa using ih b
      · simpa [h] using ih c

variable {σ δ : Type}

/-- faults that are kept alike are the same -/
theorem eq_of_kept_eq {p q : UInt16 × Fault} (hp : p.2.recoverable = true) (hq : q.2.recoverable = true)
    (h : kept p = kept q) : p = q := by
  obtain ⟨hpc, hmessage⟩ := Prod.mk.inj h
  exact Prod.ext hpc (Fault.eq_of_message_eq hp hq hmessage)

/-- the fault that is kept, with its address, is this one; none is kept when there is none -/
structure Remembers (s : Interpreter σ δ) (last : Option (UInt16 × Fault)) : Prop where
  recoverable : ∀ p ∈ last, p.2.recoverable = true
  keeps : s.lastFault = last.map kept

/-- **Repeats.** The fault that is kept tells whether one more fault repeats it. -/
theorem Remembers.isRepeat_iff {s : Interpreter σ δ} {last : Option (UInt16 × Fault)} {p : UInt16 × Fault}
    (h : s.Remembers last) (hp : p.2.recoverable = true) : s.isRepeat p.1 p.2 = true ↔ last = some p := by
  rw [isRepeat, decide_eq_true_iff, h.keeps]
  constructor
  · intro hkept
    obtain ⟨q, hq, hqp⟩ := Option.map_eq_some_iff.1 hkept
    rw [hq, eq_of_kept_eq (h.recoverable q hq) hp hqp]
  · intro hlast
    rw [hlast]
    rfl

/-- one more fault, unless it is a repeat -/
theorem Remembers.toList_filter_repeat {s : Interpreter σ δ} {last : Option (UInt16 × Fault)} {p : UInt16 × Fault}
    (h : s.Remembers last) (hp : p.2.recoverable = true) :
    ((some p).filter fun q => !s.isRepeat q.1 q.2).toList = if last = some p then [] else [p] := by
  rw [← if_congr (h.isRepeat_iff hp) rfl rfl, Option.filter_some]
  cases s.isRepeat p.1 p.2 <;> rfl

variable [Input σ]

theorem recoverable_of_stepFault {s : Interpreter σ δ} {p : UInt16 × Fault} (h : s.stepFault = some p) :
    p.2.recoverable = true := by
  unfold stepFault at h
  split at h
  · cases h
  · split at h
    case isTrue hf =>
      cases h
      exact hf
    case isFalse => cases h

variable [Display δ]

/-! ## One turn -/

/-- what a turn publishes, in order: the pauses of its question, the fault of its step if it is new, the pause of the
halt -/
def turnEvents (s : Interpreter σ δ) : List Event :=
  (s.question .turn).toList.flatMap fun asked =>
    (Note.pauses (asked.monitor.permit asked.machine.pc).notes).map .paused ++
      (asked.newFault.toList.map .ofFault ++ asked.haltPause.toList.map .paused)

/-- **What a turn publishes.** -/
theorem turn_published (s : Interpreter σ δ) : Note.published s.turn.notes = s.turnEvents := by
  by_cases h : s.pollInput.2 = .ok true
  · let asked := s.pollInput.1
    obtain ⟨after, hnotes, hafter⟩ := turn_parts h
    obtain ⟨ran, hstep, hran⟩ := step_notes asked
    have hpauses : Note.pauses asked.step.notes = Note.pauses (asked.monitor.permit asked.machine.pc).notes := by
      rw [hstep, Note.pauses_append, Note.pauses_of_silent hran, List.append_nil]
    calc Note.published s.turn.notes
        = Note.published asked.step.notes ++ (Note.published asked.told.notes ++ Note.published after) := by
          rw [hnotes, Note.published_append, Note.published_append]
      _ = (Note.pauses asked.step.notes).map .paused ++
          (asked.newFault.toList.map .ofFault ++ asked.haltPause.toList.map .paused) := by
          rw [(step_story asked).published, told, published_tell, hafter.story.published, hafter.pauses]
      _ = s.turnEvents := by
          rw [hpauses, turnEvents, question_turn_eq_some_iff.2 ⟨h, rfl⟩, Option.toList_some, List.flatMap_singleton]
  · rw [turnEvents, question_turn_eq_none h]
    exact Note.published_of_silent (turn_of_no_question h).2

/-- the recoverable fault that the main loop takes in an action, with its address -/
def faultOf (s : Interpreter σ δ) : Action σ δ → Option (UInt16 × Fault)
  | .turn => (s.question .turn).bind stepFault
  | _ => none

omit [Display δ] in
theorem recoverable_of_faultOf {s : Interpreter σ δ} {a : Action σ δ} {p : UInt16 × Fault} (h : s.faultOf a = some p) :
    p.2.recoverable = true := by
  cases a with
  | turn =>
    obtain ⟨t, -, ht⟩ := Option.bind_eq_some_iff.1 h
    exact recoverable_of_stepFault ht
  | _ => cases h

/-- how an action counts, keeps and publishes the fault that is taken in it -/
theorem perform_fault (s : Interpreter σ δ) (a : Action σ δ) :
    (s.perform a).val.faults = s.faults + (s.faultOf a).toList.length ∧
    (s.perform a).val.lastFault = ((s.faultOf a).map kept).or s.lastFault ∧
    (Note.published (s.perform a).notes).filterMap Event.fault? =
      ((s.faultOf a).filter fun p => !s.isRepeat p.1 p.2).toList := by
  cases a with
  | step =>
    obtain ⟨machine, monitor, input, cycles, hframe⟩ := step_frame s
    rw [perform, Noted.val_map, Noted.notes_map, hframe, (step_story s).published, Event.filterMap_fault?_map_paused]
    exact ⟨rfl, rfl, rfl⟩
  | turn =>
    rw [perform, Noted.val_map, Noted.notes_map]
    by_cases hpoll : s.pollInput.2 = .ok true
    · obtain ⟨redraw, display, shown, hval, -, -⟩ := turn_of_question hpoll
      obtain ⟨hcount, hlast⟩ := guardedStep_counts s.pollInput.1
      rw [hval, turn_published, turnEvents, faultOf, question_turn_eq_some_iff.2 ⟨hpoll, rfl⟩, Option.toList_some,
        List.flatMap_singleton, List.filterMap_append, List.filterMap_append, Event.filterMap_fault?_map_paused,
        Event.filterMap_fault?_map_paused, Event.filterMap_fault?_map_ofFault, List.append_nil]
      exact ⟨hcount, hlast, rfl⟩
    · rw [(turn_of_no_question hpoll).1, turn_published, turnEvents, faultOf, question_turn_eq_none hpoll]
      exact ⟨rfl, rfl, rfl⟩
  | _ => exact ⟨rfl, rfl, rfl⟩

/-! ## Runs -/

/-- the recoverable faults that the main loop takes in a list of actions, in order, each with its address -/
def faultsTaken : List (Action σ δ) → Interpreter σ δ → List (UInt16 × Fault)
  | [], _ => []
  | a :: as, s => (s.faultOf a).toList ++ faultsTaken as (s.perform a).val

theorem recoverable_of_mem_faultsTaken {as : List (Action σ δ)} {s : Interpreter σ δ} {p : UInt16 × Fault}
    (h : p ∈ faultsTaken as s) : p.2.recoverable = true := by
  induction as generalizing s with
  | nil => cases h
  | cons a as ih =>
    rcases List.mem_append.1 h with hp | hp
    · exact recoverable_of_faultOf (Option.mem_toList.1 hp)
    · exact ih hp

omit [Input σ] [Display δ] in
/-- the interpreter and the events published so far account for the faults so far -/
structure Reported (faults : List (UInt16 × Fault)) (events : List Event) (s : Interpreter σ δ) : Prop where
  count : s.faults = faults.length
  last : s.lastFault = faults.getLast?.map kept
  once : events.filterMap Event.fault? = faults.destutter (· ≠ ·)

omit [Input σ] [Display δ] in
theorem Reported.remembers {s : Interpreter σ δ} {faults : List (UInt16 × Fault)} {events : List Event}
    (h : s.Reported faults events) (hrecoverable : ∀ q ∈ faults, q.2.recoverable = true) :
    s.Remembers faults.getLast? :=
  ⟨fun q hq => hrecoverable q (List.mem_of_getLast? hq), h.last⟩

theorem Reported.perform {s : Interpreter σ δ} {faults : List (UInt16 × Fault)} {events : List Event}
    (h : s.Reported faults events) (hrecoverable : ∀ p ∈ faults, p.2.recoverable = true) (a : Action σ δ) :
    Reported (faults ++ (s.faultOf a).toList) (events ++ Note.published (s.perform a).notes) (s.perform a).val := by
  obtain ⟨hcount, hlast, hevents⟩ := perform_fault s a
  refine ⟨?_, ?_, ?_⟩
  · rw [hcount, h.count, List.length_append]
  · rw [hlast, h.last, List.getLast?_append, Option.map_or]
    cases s.faultOf a <;> rfl
  · rw [List.filterMap_append, hevents, h.once]
    cases hfault : s.faultOf a with
    | none => simp
    | some p =>
      rw [Option.toList_some, destutter_concat_ne,
        (h.remembers hrecoverable).toList_filter_repeat (recoverable_of_faultOf hfault)]

theorem performAll_reported {s : Interpreter σ δ} {faults : List (UInt16 × Fault)} {events : List Event}
    (h : s.Reported faults events) (hrecoverable : ∀ p ∈ faults, p.2.recoverable = true) (as : List (Action σ δ)) :
    Reported (faults ++ faultsTaken as s) (events ++ Note.published (performAll as s).notes) (performAll as s).val := by
  induction as generalizing s faults events with
  | nil => simpa [faultsTaken, performAll, Note.published] using h
  | cons a as ih =>
    have hmore : ∀ p ∈ faults ++ (s.faultOf a).toList, p.2.recoverable = true := by
      intro p hp
      rcases List.mem_append.1 hp with hp | hp
      · exact hrecoverable p hp
      · exact recoverable_of_faultOf (Option.mem_toList.1 hp)
    have hrest := ih (h.perform hrecoverable a) hmore
    rwa [List.append_assoc, List.append_assoc, ← Note.published_append] at hrest

/-! ## Fault reports -/

/-- **Fault reports.** Take any run from a fresh monitor with a subscriber, and the recoverable faults of its turns.
- They are counted, the last one is kept, and those that do not repeat the one before them are published, in order. It
  stays so when a whole main loop follows.
- Each turn publishes the pauses of its question, then its fault, then the pause that the fault causes.
- However the subscriber's reading falls between the events, what gets through is some of the events, in order, and an
  event is missing only if the queue was full when it was published. At the end of the run, with its reading where the
  run has it, the queue holds what is not read yet. -/
theorem faults_reported (m : Machine) (input : σ) (display : δ) (config : Config) (as : List (Action σ δ))
    (hkeeps : ∀ a ∈ as, a.isSubscription = false) :
    let start := (create m Monitor.fresh.subscribe input display config).val
    let run := performAll as start
    let faults := faultsTaken as start
    let events := Note.published run.notes
    let loop := run.val.mainLoop
    let made := List.replicate (turnsMade run.val.limit run.val) .turn
    (run.val.Reported faults events ∧
      loop.val.1.Reported (faults ++ faultsTaken made run.val) (events ++ Note.published loop.notes)) ∧
    (∀ before after, as = before ++ .turn :: after →
      Note.published (performAll before start).val.turn.notes = (performAll before start).val.turnEvents) ∧
    (∀ traffic, Traffic.offers traffic = events →
      (Channel.empty.after traffic).through.Sublist events ∧
      ∀ before e later, traffic = before ++ .offered e :: later →
        (Channel.empty.after before).pending.length < eventCapacity →
        (Channel.empty.after before).through ++ [e] <+: (Channel.empty.after traffic).through) ∧
    Traffic.offers (trafficIn as start) = events ∧
    run.val.monitor.events = some (Channel.empty.after (trafficIn as start)).pending := by
  intro start run faults events loop made
  have hstart : start.Reported [] [] := ⟨rfl, rfl, rfl⟩
  have hrun : run.val.Reported faults events := performAll_reported hstart (by simp) as
  have hrecoverable : ∀ p ∈ faults, p.2.recoverable = true := fun p => recoverable_of_mem_faultsTaken
  refine ⟨⟨hrun, ?_⟩, fun before _ _ => turn_published _, ?_, offers_trafficIn as start, ?_⟩
  · obtain ⟨hval, closing, hnotes, hclosing⟩ := mainLoop_eq_performAll run.val
    have hloop := performAll_reported hrun hrecoverable made
    rwa [← hval, ← List.append_nil (Note.published (performAll made run.val).notes), ← Note.published_of_silent hclosing,
      ← Note.published_append, ← hnotes] at hloop
  · intro traffic hoffers
    refine ⟨hoffers ▸ Channel.through_sublist traffic, ?_⟩
    rintro before e later rfl hroom
    exact Channel.arrives hroom
  · exact performAll_offered (c := .empty) (create_events m input display config) hkeeps

/-- two steps that cannot fetch, the first of them with a pause before it, and then a bad opcode; the subscriber reads
once -/
def faultyRun : List (Action HeldKeys FrameCounter) :=
  [.world fun m dev display => (m.jump 0x1000, dev, display), .send .step, .turn, .receive, .send .step, .turn,
    .world fun m dev display => (m.jump 0x200, dev, display), .send .resume, .turn]

/-- three faults are counted and two are published, and they wait behind no pause, since that was read -/
theorem repeated_fault_published_once :
    let start := (create (.fresh .disabled (.ofSeed 0)) Monitor.fresh.subscribe (HeldKeys.ofKeys [] [])
      FrameCounter.steady pausedConfig).val
    let run := performAll faultyRun start
    (∀ a ∈ faultyRun, a.isSubscription = false) ∧ run.val.faults = 3 ∧
      (Note.published run.notes).filterMap Event.fault? =
        [(0x1000, .outOfBounds 0x1000), (0x200, .invalidOpcode 0 0x200)] ∧
      run.val.monitor.events = some [.fault 0x1000 (.outOfBounds 0x1000), .fault 0x200 (.invalidOpcode 0 0x200)] := by
  dsimp only
  have hkeeps : ∀ a ∈ faultyRun, a.isSubscription = false := by simp [faultyRun, Action.isSubscription]
  obtain ⟨⟨hrun, -⟩, -, -, -, hqueue⟩ := faults_reported (.fresh .disabled (.ofSeed 0)) (HeldKeys.ofKeys [] [])
    FrameCounter.steady pausedConfig faultyRun hkeeps
  exact ⟨hkeeps, hrun.count.trans (by decide +kernel), hrun.once.trans (by decide +kernel),
    hqueue.trans (by decide +kernel)⟩

/-- **A pause before the fault.** The machine is told to pause and then to step, and the opcode is bad: in the turn in
which this happens the pause is published first. -/
theorem drained_pause_comes_first :
    let start := (create (.fresh .disabled (.ofSeed 0)) Monitor.fresh.subscribe (HeldKeys.ofKeys [] [])
      FrameCounter.steady pausedConfig).val
    let s := (performAll [.send .step] start).val
    Note.published s.turn.notes = [.paused 0x200, .fault 0x200 (.invalidOpcode 0 0x200)] ∧
      ¬ ∀ before p after, Note.published s.turn.notes = before ++ .ofFault p :: after → ∀ q, .paused q ∉ before := by
  intro start s
  have hturn : Note.published s.turn.notes = [.paused 0x200, .fault 0x200 (.invalidOpcode 0 0x200)] := by decide +kernel
  refine ⟨hturn, fun h => ?_⟩
  exact h [.paused 0x200] (0x200, .invalidOpcode 0 0x200) [] hturn 0x200 (by decide)

end Chip8.Interpreter
