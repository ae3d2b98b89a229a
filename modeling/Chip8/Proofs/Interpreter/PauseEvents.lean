/-
Pauses tell the run state. A debugger that counts can tell whether the monitor is active: it is just when one more pause
was published than resumes took effect. So no single step, no pause that is repeated, no breakpoint that is hit again
and no halt that is ordered again publishes a second pause before the machine was resumed. The pauses that are counted
are those that are offered to the subscriber's queue, whenever there is a subscriber.

The halt of a machine that is stuck comes after its step. Were a step still armed then, the halt would publish a pause
although the monitor was active all along; but by then the step is over (`step_ne_stepArmed`).

Results:
- `perform_mirrored`: pauses and resumes take turns in every action;
- `perform_resumes`: the resumes that are noted are those that took effect;
- `pauses_mirror_run_state`: pauses, resumes and the run state over any run.
-/
import Chip8.Proofs.Interpreter.Subscriber

namespace Chip8.Interpreter

open Monitor

variable {σ δ : Type} [Input σ] [Display δ]

/-! ## One action -/

/-- **What an action says mirrors the run state.** -/
theorem perform_mirrored (s : Interpreter σ δ) (a : Action σ δ) :
    Mirrored s.monitor (s.perform a).val.monitor (s.perform a).notes := by
  cases a with
  | step =>
    rw [perform, Noted.val_map, Noted.notes_map]
    exact (step_story s).mirrored
  | turn =>
    rw [perform, Noted.val_map, Noted.notes_map]
    exact turn_chained Mirrored.chained s
  | _ => exact .of_silent Note.silent_nil rfl

omit [Display δ] in
theorem resumes_step (s : Interpreter σ δ) : Note.resumes s.step.notes = s.resumes := by
  obtain ⟨ran, hnotes, hran⟩ := step_notes s
  rw [hnotes, Note.resumes_append, Note.resumes_of_silent hran, List.append_nil, resumes_permit]
  rfl

/-- the resumes that an action notes are those that took effect at its question -/
theorem perform_resumes (s : Interpreter σ δ) (a : Action σ δ) :
    Note.resumes (s.perform a).notes = (s.question a).toList.flatMap resumes := by
  cases a with
  | step =>
    rw [perform, Noted.notes_map, resumes_step, question, Option.toList_some, List.flatMap_singleton]
  | turn =>
    rw [perform, Noted.notes_map]
    by_cases hpoll : s.pollInput.2 = .ok true
    · obtain ⟨after, hnotes, hafter⟩ := turn_parts hpoll
      rw [hnotes, Note.resumes_append, Note.resumes_append, resumes_step, told, resumes_tell, hafter.resumes,
        question_turn_eq_some_iff.2 ⟨hpoll, rfl⟩, Option.toList_some, List.flatMap_singleton, List.append_nil,
        List.append_nil]
    · rw [Note.resumes_of_silent (turn_of_no_question hpoll).2, question_turn_eq_none hpoll]
      rfl
  | _ => rfl

/-! ## Runs -/

theorem performAll_mirrored (as : List (Action σ δ)) (s : Interpreter σ δ) :
    Mirrored s.monitor (performAll as s).val.monitor (performAll as s).notes := by
  induction as generalizing s with
  | nil => exact .of_silent Note.silent_nil rfl
  | cons a as ih => exact (perform_mirrored s a).append (ih _)

theorem performAll_resumes (as : List (Action σ δ)) (s : Interpreter σ δ) :
    Note.resumes (performAll as s).notes = resumesIn as s := by
  induction as generalizing s with
  | nil => rfl
  | cons a as ih =>
    rw [performAll, Noted.notes_bind, Note.resumes_append, perform_resumes, ih, resumesIn, resumesIn, questions,
      List.flatMap_append]

/-- **Pauses tell the run state.** Take any run from a fresh monitor.
- The pauses published are as many as the resumes that took effect, and one more when the monitor is active. Between two
  pauses a resume took effect.
- The pauses that are noted are the pauses that are offered to the subscriber's channel, in order. Whoever subscribes in
  the run and stays finds what is offered from then on in the queue, as far as it had room and is not read yet. When the
  queue never was full, all pauses since are among what was read and what waits. -/
theorem pauses_mirror_run_state (m : Machine) (input : σ) (display : δ) (config : Config) (as : List (Action σ δ)) :
    let start := (create m .fresh input display config).val
    let run := performAll as start
    (Note.pauses run.notes).length =
      (resumesIn as start).length + (if run.val.monitor.isActive then 1 else 0) ∧
    Note.resumes run.notes = resumesIn as start ∧
    (∀ before p between q after, run.notes = before ++ .paused p :: (between ++ .paused q :: after) →
      ∃ r, .resumed r ∈ between) ∧
    (Traffic.offers (trafficIn as start)).filterMap Event.pause? = Note.pauses run.notes ∧
    ∀ before during, as = before ++ .subscribe :: during → (∀ a ∈ during, a.isSubscription = false) →
      let s := (performAll (before ++ [.subscribe]) start).val
      let channel := Channel.empty.after (trafficIn during s)
      let pauses := Note.pauses (performAll during s).notes
      run.val.monitor.events = some channel.pending ∧
      (Traffic.offers (trafficIn during s)).filterMap Event.pause? = pauses ∧
      (Channel.KeepsUp (trafficIn during s) → channel.through.filterMap Event.pause? = pauses) := by
  intro start run
  have hmirrored : Mirrored start.monitor run.val.monitor run.notes := performAll_mirrored as start
  have hresumes : Note.resumes run.notes = resumesIn as start := performAll_resumes as start
  have hstart : start.monitor.isActive = false := by simp [isActive, start, create_state]
  refine ⟨?_, hresumes, ?_, pauses_trafficIn as start, ?_⟩
  · have hcount := Note.length_pauses hmirrored
    rw [hstart, hresumes] at hcount
    cases hactive : run.val.monitor.isActive with
    | true => simpa [hactive] using hcount
    | false => simpa [hactive] using hcount
  · intro before p between q after hnotes
    rw [Mirrored, hnotes] at hmirrored
    exact Note.exists_resumed_between hmirrored
  · rintro before during rfl hkeeps s channel pauses
    have hoffered : (Traffic.offers (trafficIn during s)).filterMap Event.pause? = pauses := pauses_trafficIn during s
    refine ⟨subscribed_events start hkeeps, hoffered, fun hkeepsUp => ?_⟩
    rw [← hoffered, ← Channel.through_of_keepsUp hkeepsUp]

/-- a breakpoint holds a bad opcode, which is stepped over and then run from, until the program leaves memory: all but
the last two actions come before the machine is stuck, and the step that is sent last does not get it further -/
def offMemory : List (Action HeldKeys FrameCounter) :=
  [.send (.setBreakpoint 0x200), .turn, .send .pause, .send .step, .turn, .send .resume, .turn,
    .world fun m dev display => (m.jump 0x1000, dev, display), .turn, .send .step, .turn]

/-- The breakpoint pauses, the step, the pause that is repeated and the second halt do not, and the first halt does. The
subscriber, who reads nothing, finds both pauses in the queue. -/
theorem paused_again_after_resume :
    let start := (create (.fresh .disabled (.ofSeed 0)) .fresh (HeldKeys.ofKeys [] []) FrameCounter.steady .default).val
    let run := performAll (.subscribe :: offMemory) start
    let between := [.fault 0x200 (.invalidOpcode 0 0x200), .resumed 0x202, .fault 0x202 (.invalidOpcode 0 0x202),
      .fault 0x1000 (.outOfBounds 0x1000), .stuck 0x1000]
    run.notes = [] ++ .paused 0x200 :: (between ++ .paused 0x1000 :: [.stuck 0x1000]) ∧
      (Note.pauses run.notes).length = 1 + 1 ∧
      (∃ r, .resumed r ∈ between) ∧
      run.val.monitor.events = some [.paused 0x200, .fault 0x200 (.invalidOpcode 0 0x200),
        .fault 0x202 (.invalidOpcode 0 0x202), .fault 0x1000 (.outOfBounds 0x1000), .paused 0x1000] ∧
      (Channel.empty.after (trafficIn offMemory (performAll [.subscribe] start).val)).through.filterMap Event.pause? =
        [0x200, 0x1000] := by
  dsimp only
  have hnotes : (performAll (.subscribe :: offMemory) (create (.fresh .disabled (.ofSeed 0)) .fresh
      (HeldKeys.ofKeys [] []) FrameCounter.steady .default).val).notes =
      [] ++ .paused 0x200 :: ([.fault 0x200 (.invalidOpcode 0 0x200), .resumed 0x202,
        .fault 0x202 (.invalidOpcode 0 0x202), .fault 0x1000 (.outOfBounds 0x1000), .stuck 0x1000] ++
        .paused 0x1000 :: [.stuck 0x1000]) := by decide +kernel
  obtain ⟨hcount, -, hbetween, -, hqueue⟩ := pauses_mirror_run_state (.fresh .disabled (.ofSeed 0))
    (HeldKeys.ofKeys [] []) FrameCounter.steady .default (.subscribe :: offMemory)
  have hkeeps : ∀ a ∈ offMemory, a.isSubscription = false := by simp [offMemory, Action.isSubscription]
  obtain ⟨hevents, -, hthrough⟩ := hqueue [] offMemory rfl hkeeps
  have hkeepsUp := @Channel.keepsUp_of_length_le (trafficIn offMemory (performAll ([] ++ [.subscribe])
    (create (.fresh .disabled (.ofSeed 0)) .fresh (HeldKeys.ofKeys [] []) FrameCounter.steady .default).val).val)
    (by decide +kernel)
  -- one resume took effect, and the monitor is active at the end
  exact ⟨hnotes, hcount.trans (by decide +kernel), hbetween _ _ _ _ _ hnotes, hevents.trans (by decide +kernel),
    (hthrough hkeepsUp).trans (by decide +kernel)⟩

end Chip8.Interpreter
