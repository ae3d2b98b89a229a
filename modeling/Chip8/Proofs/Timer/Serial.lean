/-
Operations one at a time. Between two operations a timer with threads looks as if the operations that were called had
been carried out one after the other, each in one go, with the ticks that were taken in between. So what holds of
`Countdown` after any moves holds of the threads.

An operation takes effect at one moment between its call and its end (`made`): a `set` when it stores its value, a
`disable` and an `enable` when the flag changes, a wait when the thread is over. A tick takes effect when a worker takes
it. While an operation is on its way, what the owner has done so far and what the timer is as a whole may differ
(`Mirrors`).

Results:
- `Mirrors.step`: with each step the timer makes the moves that take effect with it;
- `run_serial`: so it does in every run, and the operations among the moves are the ones that were called;
- `exists_run_of_performAll`: all moves of a timer without threads can be made with threads;
- `task_in_step`: a timer counts just when it is enabled and above zero, a disabled one has no task and only a `set`
  changes its value, and no tick finds a zero.
-/
import Mathlib.Data.List.Induction
import Chip8.Proofs.Timer.Threads

namespace Chip8

namespace Countdown

/-- the operation that a move is -/
def Move.op? : Move → Option Op
  | .own op => some op
  | .tick => none

/-- moves without a tick are operations -/
theorem eq_map_own {ms : List Move} (h : .tick ∉ ms) : ms = (ms.filterMap Move.op?).map .own := by
  induction ms with
  | nil => rfl
  | cons m ms ih =>
    rw [List.mem_cons, not_or] at h
    cases m with
    | tick => exact absurd rfl h.1
    | own op => exact congrArg (Move.own op :: ·) (ih h.2)

theorem countOne_frame (t : Countdown) : t.countOne.val =
    { t with
      speaker := t.countOne.val.speaker
      value := t.countOne.val.value
      task := if t.value ≤ 1 then some .spent else t.task } := by
  rw [← countOne_task]
  rcases t with ⟨name, _ | speaker, value, disabled, task⟩
  · unfold countOne
    split
    · rfl
    · split <;> rfl
  · unfold countOne
    split
    · rfl
    · split <;> rfl

end Countdown

/-- the operation that a task is given up for -/
def Purpose.op : Purpose → Countdown.Op
  | .store value => .set value
  | .disable => .disable

namespace TimerThreads

open Countdown (Op Move performAll)

/-! ## What takes effect with a step -/

/-- the moves that take effect with a step -/
def made (p : TimerThreads) : Step → List Move
  | .call op => if p.stage = .idle ∧ op = .get then [.own .get] else []
  | .act =>
    match p.stage with
    | .commit (.store value) => [.own (.set value)]
    | .commit .disable => [.own .disable]
    | .enable => [.own .enable]
    | .wait => if p.held then [] else [.own .wait]
    | _ => []
  | .take k => if p.nextTick k = none then [] else [.tick]
  | .leave _ => []

/-- the operation that is called with a step -/
def called (p : TimerThreads) : Step → List Op
  | .call op => if p.stage = .idle then [op] else []
  | _ => []

/-- the operation that was called and has not taken effect yet -/
def underway : Stage → List Op
  | .hangUp next | .join next | .commit next => [next.op]
  | .enable => [.enable]
  | .wait => [.wait]
  | .idle | .silence | .register | .spawn => []

/-- an operation takes effect after it was called, and once -/
theorem underway_step (p : TimerThreads) (s : Step) :
    underway p.stage ++ p.called s = (p.made s).filterMap Move.op? ++ underway (p.step s).stage := by
  cases s with
  | take k =>
    simp only [called, made, step, (p.take_frame k).1]
    split <;> simp [Move.op?]
  | leave k => simp [called, made, step, leave]
  | call op =>
    simp only [called, made, step]
    by_cases hs : p.stage = .idle
    · cases op <;> simp [hs, plan, underway, Move.op?, Purpose.op]
    · simp [hs]
  | act =>
    unfold called made step act
    cases e : p.stage with
    | idle => simp [underway, e]
    | hangUp next => simp [underway]
    | join next =>
      dsimp only
      split <;> simp [underway, e]
    | commit next =>
      cases next with
      | disable => simp [underway, Move.op?, Purpose.op]
      | store value =>
        dsimp only
        split
        · simp [underway, Move.op?, Purpose.op]
        · split <;> simp [underway, Move.op?, Purpose.op]
    | silence => simp [underway]
    | register => simp [underway]
    | spawn => simp [underway, spawned]
    | enable =>
      dsimp only
      split <;> simp [underway, Move.op?]
    | wait =>
      dsimp only
      split <;> simp [underway, Move.op?, e]

/-! ## Stages of an operation -/

/-- how the timer as a whole is while the owner is on its way through an operation -/
def Mirrors (p : TimerThreads) (t : Countdown) : Prop :=
  match p.stage with
  | .idle | .hangUp _ | .enable | .wait => t = p.view
  -- the worker may go on counting until the owner notices that it left
  | .join _ => ∃ task, t = p.counter task ∧ (p.held = true → task = some .counting)
  | .commit _ => ∃ task, t = p.counter task
  -- the value is there; what is left to do is seen from the stage
  | .silence => t = (p.counter none).toneOff.val
  | .register | .spawn => t = p.counter (some .counting)

theorem task_of_held {p : TimerThreads} (h : p.held = true) : p.task = some .counting := by
  obtain ⟨k, hk, ha⟩ := held_eq_true_iff.1 h
  simp [task, hk, ha]

/-- the owner sees a timer that counts just when the worker it holds counts -/
theorem running_view (p : TimerThreads) : p.view.running = p.held := by
  unfold view held Countdown.running counter task
  cases p.handle with
  | none => rfl
  | some k => cases hk : p.alive k <;> simp [hk]

/-- hanging up ends no worker by itself -/
@[simp] theorem alive_hungUp (p : TimerThreads) (stage : Stage) (k : Nat) :
    { p with workers := p.hungUp, stage := stage }.alive k = p.alive k := by
  simp only [alive, hungUp]
  split
  case h_1 j hj =>
    rw [List.getElem?_modify]
    cases p.workers[k]? with
    | none => rfl
    | some w =>
      simp only [Option.any_some]
      split <;> rfl
  case h_2 => rfl

theorem view_new (name : String) (speaker : Option Speaker) : (new name speaker).view = .new name speaker := by
  cases speaker <;> rfl

namespace Mirrors

variable {p : TimerThreads} {t : Countdown}

theorem eq_view (h : Mirrors p t) (hi : p.stage = .idle) : t = p.view := by
  unfold Mirrors at h
  simpa only [hi] using h

theorem of_idle (hi : p.stage = .idle) : Mirrors p p.view := by
  unfold Mirrors
  simp only [hi]

theorem hungUp (next : Purpose) : Mirrors { p with workers := p.hungUp, stage := .join next } p.view := by
  refine ⟨_, rfl, fun hh => task_of_held ?_⟩
  obtain ⟨k, hk, ha⟩ := held_eq_true_iff.1 hh
  rw [alive_hungUp] at ha
  exact held_eq_true_iff.2 ⟨k, hk, ha⟩

/-- a store does what a `set` does; with a value to count the worker is still missing -/
theorem stored {value : UInt8} (hs : p.stage = .commit (.store value)) (hn : p.handle = none)
    (found : Option CountTask) : Mirrors p.act ((p.counter found).set value).val := by
  simp only [TimerThreads.act, hs, Countdown.set_val]
  cases hd : p.disabled with
  | true => simp [Mirrors, counter, hd, view, task, hn]
  | false =>
    by_cases h0 : value = 0
    · simp [Mirrors, counter, hd, h0]
    · simp [Mirrors, counter, hd, h0]

theorem disabled (hs : p.stage = .commit .disable) (hn : p.handle = none) (found : Option CountTask) :
    Mirrors p.act (p.counter found).disable.val := by
  simp [TimerThreads.act, hs, Countdown.disable_val, Mirrors, counter, view, task, hn]

theorem silenced (hs : p.stage = .silence) (hn : p.handle = none) :
    Mirrors p.act (p.counter none).toneOff.val := by
  have hoff := (p.counter none).switchTone_val false
  simp only [TimerThreads.act, hs, Mirrors, view, task, hn, Countdown.toneOff_val]
  exact hoff

theorem spawned : Mirrors p.spawned (p.counter (some .counting)) := by
  have hh : p.spawned.held = true := by
    simp [held, TimerThreads.spawned, alive, Worker.start]
  exact congrArg p.counter (task_of_held hh).symm

theorem enabled (hs : p.stage = .enable) : Mirrors p.act p.view.enable.val := by
  simp only [TimerThreads.act, hs, Countdown.enable_val]
  by_cases hc : p.value > 0 ∧ p.handle = none
  · have hc' : p.view.value > 0 ∧ p.view.task = none := ⟨hc.1, by simp [view, counter, task, hc.2]⟩
    rw [if_pos hc, if_pos hc']
    rfl
  · have hc' : ¬ (p.view.value > 0 ∧ p.view.task = none) := by simpa [view, counter, task] using hc
    rw [if_neg hc, if_neg hc']
    rfl

/-- a step with which nothing takes effect -/
theorem of_nothing {p' : TimerThreads} {s : Step} (hm : p.made s = []) (h : Mirrors p' t) :
    ∃ r, performAll (p.made s) t = some r ∧ Mirrors p' r.val :=
  ⟨pure t, by rw [hm]; rfl, h⟩

/-- a step with which one move takes effect -/
theorem of_move {p' : TimerThreads} {s : Step} {r : Noted Countdown} (m : Move) (hm : p.made s = [m])
    (hr : t.perform m = some r) (h : Mirrors p' r.val) : ∃ r, performAll (p.made s) t = some r ∧ Mirrors p' r.val := by
  rw [hm]
  exact ⟨_, Countdown.performAll_cons_eq_some_iff.2 ⟨r, pure r.val, hr, rfl, rfl⟩, h⟩

theorem act (h : Mirrors p t) (ho : p.Orderly) :
    ∃ r, performAll (p.made .act) t = some r ∧ Mirrors p.act r.val := by
  have hf := ho.fits
  unfold Mirrors at h
  unfold Fits at hf
  cases e : p.stage with
  | idle =>
    simp only [e] at h
    refine of_nothing (by simp [made, e]) ?_
    simpa [TimerThreads.act, e, Mirrors] using h
  | hangUp next =>
    simp only [e] at h
    subst h
    refine of_nothing (by simp [made, e]) ?_
    simpa only [TimerThreads.act, e] using hungUp next
  | join next =>
    simp only [e] at h
    refine of_nothing (by simp [made, e]) ?_
    simp only [TimerThreads.act, e]
    split
    case isTrue => simpa only [Mirrors, e] using h
    case isFalse =>
      obtain ⟨task, ht, -⟩ := h
      exact ⟨task, ht⟩
  | commit next =>
    simp only [e] at h hf
    obtain ⟨task, rfl⟩ := h
    cases next with
    | store value => exact of_move (.own (.set value)) (by simp [made, e]) rfl (stored e hf task)
    | disable => exact of_move (.own .disable) (by simp [made, e]) rfl (disabled e hf task)
  | silence =>
    simp only [e] at h hf
    subst h
    exact of_nothing (by simp [made, e]) (silenced e hf)
  | register =>
    simp only [e] at h
    refine of_nothing (by simp [made, e]) ?_
    simp only [TimerThreads.act, e]
    exact h
  | spawn =>
    simp only [e] at h
    subst h
    refine of_nothing (by simp [made, e]) ?_
    simpa only [TimerThreads.act, e] using spawned
  | enable =>
    simp only [e] at h
    subst h
    exact of_move (.own .enable) (by simp [made, e]) rfl (enabled e)
  | wait =>
    simp only [e] at h
    subst h
    cases hh : p.held with
    | true =>
      refine of_nothing (by simp [made, e, hh]) ?_
      simp [TimerThreads.act, e, hh, Mirrors]
    | false =>
      have hover : p.view.running = false := (running_view p).trans hh
      refine of_move (.own .wait) (by simp [made, e, hh])
        (Countdown.waitExpired_manual_eq_some_iff.2 ⟨hover, rfl⟩) ?_
      simp only [TimerThreads.act, e, hh]
      rfl

/-- a worker counts for a timer that counts -/
theorem eq_of_held (h : Mirrors p t) (ho : p.Orderly) (hh : p.held = true) : t = p.counter (some .counting) := by
  obtain ⟨k, hk, -⟩ := held_eq_true_iff.1 hh
  have hf := ho.fits
  unfold Mirrors at h
  unfold Fits at hf
  cases e : p.stage with
  | idle | hangUp _ | enable | wait =>
    simp only [e] at h
    rw [h, view, task_of_held hh]
  | join next =>
    simp only [e] at h
    obtain ⟨task, ht, hc⟩ := h
    rw [ht, hc hh]
  | _ => simp [e, hk] at hf

/-- the worker counts one down as the timer does -/
theorem view_take (ho : p.Orderly) {k i : Nat} (hi : p.nextTick k = some i) :
    (p.take k).view = (p.counter (some .counting)).countOne.val := by
  have hk : p.alive k = true := alive_of_nextTick hi
  obtain ⟨-, halive, -⟩ := take_of_nextTick hi (ho.counting k hk).1
  have htask : (p.take k).task = if p.value ≤ 1 then some .spent else some .counting := by
    rw [task, (p.take_frame k).2.2.1, ho.held k hk, Option.map_some, halive, if_pos rfl]
    by_cases h1 : p.value ≤ 1
    · simp [h1, UInt8.not_lt.2 h1]
    · simp [h1, UInt8.not_le.1 h1]
  rw [view, htask, Countdown.countOne_frame]
  simp only [TimerThreads.take, hi]
  rfl

/-- a tick that a worker takes is a tick that the timer takes -/
theorem take (h : Mirrors p t) (ho : p.Orderly) (k : Nat) :
    ∃ r, performAll (p.made (.take k)) t = some r ∧ Mirrors (p.take k) r.val := by
  cases hi : p.nextTick k with
  | none =>
    refine of_nothing (by simp [made, hi]) ?_
    simpa [TimerThreads.take, hi] using h
  | some i =>
    have hk : p.alive k = true := alive_of_nextTick hi
    have hh : p.held = true := held_eq_true_iff.2 ⟨k, ho.held k hk, hk⟩
    have hf := ho.fits
    obtain rfl := h.eq_of_held ho hh
    refine of_move .tick (by simp [made, hi]) rfl ?_
    have htick : (p.counter (some .counting)).tick.val = (p.take k).view := by
      rw [view_take ho hi]
      rfl
    rw [htick]
    -- the later stages rely on the end of the worker, which still counts
    unfold Mirrors
    rw [(p.take_frame k).1]
    unfold Fits at hf
    cases e : p.stage with
    | idle | hangUp _ | enable | wait => rfl
    | join next => exact ⟨_, rfl, task_of_held⟩
    | _ => simp [e, ho.held k hk] at hf

/-- a worker leaves only when it was hung up on, and the timer as a whole does not see that yet -/
theorem leave (h : Mirrors p t) (ho : p.Orderly) (k : Nat) : Mirrors (p.leave k) t := by
  by_cases hj : ∃ next, p.stage = .join next
  · obtain ⟨next, e⟩ := hj
    have hs : (p.leave k).stage = .join next := e
    unfold Mirrors at h ⊢
    simp only [e] at h
    simp only [hs]
    obtain ⟨found, ht, hc⟩ := h
    refine ⟨found, ht, fun hh => hc ?_⟩
    obtain ⟨j, hj, ha⟩ := held_eq_true_iff.1 hh
    obtain ⟨w, hw, ha⟩ := alive_eq_true_iff.1 ha
    obtain ⟨w', hw', ha', -⟩ := getElem?_leave hw
    exact held_eq_true_iff.2 ⟨j, hj, alive_eq_true_iff.2 ⟨w', hw', ha' ha⟩⟩
  · rwa [ho.leave_eq (fun next e => hj ⟨next, e⟩)]

theorem deliver (h : Mirrors p t) (i : Nat) : Mirrors (p.deliver i) t := by
  have halive : (p.deliver i).alive = p.alive := funext fun j => (p.deliver_frame i j).1
  have hs : (p.deliver i).stage = p.stage := rfl
  have hheld : (p.deliver i).held = p.held := congrArg (p.handle.any ·) halive
  have hview : (p.deliver i).view = p.view := by
    unfold view task
    rw [halive]
    rfl
  unfold Mirrors at h ⊢
  simp only [hs, hheld, hview]
  exact h

/-- **One step.** With each step of its threads the timer as a whole makes the moves that take effect with it. -/
theorem step (h : Mirrors p t) (ho : p.Orderly) (s : Step) :
    ∃ r, performAll (p.made s) t = some r ∧ Mirrors (p.step s) r.val := by
  cases s with
  | act => exact h.act ho
  | take k => exact h.take ho k
  | leave k => exact of_nothing rfl (h.leave ho k)
  | call op =>
    simp only [TimerThreads.step]
    by_cases hi : p.stage = .idle
    · rw [if_pos hi]
      obtain rfl := h.eq_view hi
      cases op with
      | get => exact of_move (.own .get) (by simp [made, hi]) rfl rfl
      | _ => exact of_nothing (by simp [made]) rfl
    · rw [if_neg hi]
      exact of_nothing (by simp [made, hi]) h

end Mirrors

end TimerThreads

namespace SharedClock

open Countdown (Op Move performAll)
open TimerThreads (Mirrors Step underway)

variable {ι : Type} [DecidableEq ι]

/-! ## Runs -/

/-- the moves of timer `x` that take effect in a run, in order -/
def moves (x : ι) : List (Event ι) → SharedClock ι → List Move
  | [], _ => []
  | .tick :: es, c => moves x es (c.step .tick)
  | .thread y s :: es, c => (if y = x then (c.timers x).made s else []) ++ moves x es (c.step (.thread y s))

/-- the operations that are called on timer `x` in a run, in order -/
def calls (x : ι) : List (Event ι) → SharedClock ι → List Op
  | [], _ => []
  | .tick :: es, c => calls x es (c.step .tick)
  | .thread y s :: es, c => (if y = x then (c.timers x).called s else []) ++ calls x es (c.step (.thread y s))

theorem mirrors_run {x : ι} (es : List (Event ι)) {c : SharedClock ι} {t : Countdown} (ho : (c.timers x).Orderly)
    (h : Mirrors (c.timers x) t) :
    ∃ r, performAll (moves x es c) t = some r ∧ Mirrors ((run es c).timers x) r.val := by
  induction es generalizing c t with
  | nil => exact ⟨pure t, rfl, h⟩
  | cons e es ih =>
    cases e with
    | tick => exact ih (c := c.step .tick) (ho.deliver c.issued) (h.deliver c.issued)
    | thread y s =>
      by_cases hy : y = x
      · subst hy
        have hstep : (c.step (.thread y s)).timers y = (c.timers y).step s := by simp [step]
        obtain ⟨first, hf, hm⟩ := h.step ho s
        obtain ⟨rest, hr, hm'⟩ := ih (c := c.step (.thread y s)) (hstep ▸ ho.step s) (hstep ▸ hm)
        refine ⟨⟨rest.val, first.notes ++ rest.notes⟩, ?_, hm'⟩
        simp only [moves, if_true]
        exact Countdown.performAll_append_eq_some_iff.2 ⟨first, rest, hf, hr, rfl⟩
      · have hstep : (c.step (.thread y s)).timers x = c.timers x := by simp [step, Ne.symm hy]
        obtain ⟨r, hr, hm⟩ := ih (c := c.step (.thread y s)) (hstep ▸ ho) (hstep ▸ h)
        exact ⟨r, by simpa [moves, hy] using hr, hm⟩

theorem underway_run (x : ι) (es : List (Event ι)) (c : SharedClock ι) :
    underway (c.timers x).stage ++ calls x es c =
      (moves x es c).filterMap Move.op? ++ underway ((run es c).timers x).stage := by
  induction es generalizing c with
  | nil => simp [calls, moves, run]
  | cons e es ih =>
    cases e with
    | tick => exact ih (c.step .tick)
    | thread y s =>
      have hrest := ih (c.step (.thread y s))
      by_cases hy : y = x
      · subst hy
        have hstep : (c.step (.thread y s)).timers y = (c.timers y).step s := by simp [step]
        rw [hstep] at hrest
        simp only [calls, moves, if_true, List.filterMap_append]
        rw [← List.append_assoc, TimerThreads.underway_step, List.append_assoc, hrest, List.append_assoc]
        rfl
      · have hstep : (c.step (.thread y s)).timers x = c.timers x := by simp [step, Ne.symm hy]
        rw [hstep] at hrest
        simpa [calls, moves, hy] using hrest

/-- **Operations one at a time.** Whatever happens on a clock, a timer goes through moves that a timer without threads
can go through. Between two operations it looks as that one does, and the operations among the moves are the ones that
were called, in their order. -/
theorem run_serial (name : ι → String) (speaker : ι → Option Speaker) (es : List (Event ι)) (x : ι) :
    ∃ r, performAll (moves x es (new name speaker)) (.new (name x) (speaker x)) = some r ∧
      (((run es (new name speaker)).timers x).stage = .idle →
        ((run es (new name speaker)).timers x).view = r.val ∧
        calls x es (new name speaker) = (moves x es (new name speaker)).filterMap Move.op?) := by
  obtain ⟨r, hr, hm⟩ := mirrors_run es (c := new name speaker) (TimerThreads.orderly_new _ _) (.of_idle rfl)
  have hview : ((new name speaker).timers x).view = .new (name x) (speaker x) := TimerThreads.view_new _ _
  rw [hview] at hr
  refine ⟨r, hr, fun hi => ⟨?_, ?_⟩⟩
  · exact (hm.eq_view hi).symm
  · have hops := underway_run x es (new name speaker)
    rw [hi] at hops
    simpa [underway, new, TimerThreads.new] using hops

/-! ## Every run without threads is one with threads -/

theorem run_map (x : ι) (ss : List Step) (c : SharedClock ι) :
    (run (ss.map (.thread x)) c).timers x = ss.foldl TimerThreads.step (c.timers x) := by
  induction ss generalizing c with
  | nil => rfl
  | cons s ss ih =>
    have hstep : (c.step (.thread x s)).timers x = (c.timers x).step s := by simp [step]
    rw [List.map_cons, run_cons, ih, hstep]
    rfl

/-- while an operation is brought to its end, no other one is called and no tick takes effect -/
theorem moves_of_quiet (x : ι) {ss : List Step} (h : ss.all Step.isQuiet = true) (c : SharedClock ι) :
    calls x (ss.map (.thread x)) c = [] ∧ .tick ∉ moves x (ss.map (.thread x)) c := by
  induction ss generalizing c with
  | nil => simp [calls, moves]
  | cons s ss ih =>
    obtain ⟨hs, hss⟩ : s.isQuiet = true ∧ ss.all Step.isQuiet = true := by simpa using h
    obtain ⟨hcalls, hmoves⟩ := ih hss (c.step (.thread x s))
    cases s with
    | call op => cases hs
    | take k => cases hs
    | leave k =>
      simp only [List.map_cons, calls, moves, if_true, TimerThreads.called, TimerThreads.made]
      exact ⟨hcalls, hmoves⟩
    | act =>
      simp only [List.map_cons, calls, moves, if_true, TimerThreads.called]
      refine ⟨hcalls, ?_⟩
      rw [List.mem_append, not_or]
      refine ⟨?_, hmoves⟩
      unfold TimerThreads.made
      cases (c.timers x).stage with
      | commit next => cases next <;> simp
      | wait =>
        dsimp only
        split <;> simp
      | _ => simp

/-- when a run makes a single move, the timer looks as after that move -/
theorem view_of_moves {x : ι} {es : List (Event ι)} {c : SharedClock ι} (ho : (c.timers x).Orderly)
    (hi : (c.timers x).stage = .idle) (hend : ((run es c).timers x).stage = .idle) {m : Move}
    (hm : moves x es c = [m]) {r : Noted Countdown} (hr : (c.timers x).view.perform m = some r) :
    ((run es c).timers x).view = r.val := by
  obtain ⟨r', hr', hmirrors⟩ := mirrors_run es ho (.of_idle hi)
  rw [hm] at hr'
  obtain ⟨first, rest, hf, hrest, rfl⟩ := Countdown.performAll_cons_eq_some_iff.1 hr'
  cases hr.symm.trans hf
  cases hrest
  exact (hmirrors.eq_view hend).symm

/-- an operation that has an outcome can be gone through -/
theorem exists_run_own {x : ι} {c : SharedClock ι} (ho : (c.timers x).Orderly) (hi : (c.timers x).stage = .idle)
    {op : Op} {r : Noted Countdown} (hr : (c.timers x).view.perform (.own op) = some r) :
    ∃ es, ((run es c).timers x).stage = .idle ∧ ((run es c).timers x).view = r.val := by
  -- only a wait depends on others; it has an outcome when the countdown is over
  have hcan : ((c.timers x).step (.call op)).CanFinish := by
    cases op with
    | wait =>
      have hover := (Countdown.waitExpired_manual_eq_some_iff.1 hr).1
      rw [TimerThreads.running_view] at hover
      refine .of_step .act rfl (.of_idle ?_)
      simp only [TimerThreads.step, if_pos hi, TimerThreads.act, TimerThreads.plan]
      split
      case isTrue hh => exact absurd (hover.symm.trans hh) (by decide)
      case isFalse => rfl
    | _ => exact (ho.step _).canFinish (by simp [TimerThreads.step, hi, TimerThreads.plan])
  obtain ⟨ss, hquiet, hidle⟩ := hcan
  let es : List (Event ι) := (.call op :: ss).map (.thread x)
  have hend : ((run es c).timers x).stage = .idle := by
    rw [run_map]
    exact hidle
  obtain ⟨hcalls, hticks⟩ := moves_of_quiet x hquiet (c.step (.thread x (.call op)))
  -- no tick is taken on the way, so the operation that was called is the only move
  have hmoves : moves x es c = [.own op] := by
    have hnone : .tick ∉ moves x es c := by
      simp only [es, List.map_cons, moves, if_true, TimerThreads.made, List.mem_append, not_or]
      exact ⟨by split <;> simp, hticks⟩
    have hcall : calls x es c = [op] := by simp [es, calls, TimerThreads.called, hi, hcalls]
    have hops := underway_run x es c
    rw [hi, hend, hcall] at hops
    have hop : [op] = (moves x es c).filterMap Move.op? := by simpa [underway] using hops
    rw [Countdown.eq_map_own hnone, ← hop]
    rfl
  exact ⟨es, hend, view_of_moves ho hi hend hmoves hr⟩

/-- a tick can be delivered and taken -/
theorem exists_run_tick {x : ι} {c : SharedClock ι} (ho : (c.timers x).Orderly) (hi : (c.timers x).stage = .idle) :
    ∃ es, ((run es c).timers x).stage = .idle ∧ ((run es c).timers x).view = (c.timers x).view.tick.val := by
  cases hh : (c.timers x).held with
  | false =>
    have hover : (c.timers x).view.running = false := (TimerThreads.running_view _).trans hh
    refine ⟨[], hi, ?_⟩
    rw [Countdown.tick_val, if_neg (by simp [hover])]
    rfl
  | true =>
    obtain ⟨k, -, ha⟩ := TimerThreads.held_eq_true_iff.1 hh
    obtain ⟨w, hw, ha⟩ := TimerThreads.alive_eq_true_iff.1 ha
    let es : List (Event ι) := [.tick, .thread x (.take k)]
    have hrun : (run es c).timers x = ((c.timers x).deliver c.issued).take k := by
      simp [es, run, step, TimerThreads.step]
    have hend : ((run es c).timers x).stage = .idle := by
      rw [hrun, (TimerThreads.take_frame _ k).1]
      exact hi
    have hnext : ((c.timers x).deliver c.issued).nextTick k ≠ none := by
      simp [TimerThreads.nextTick, TimerThreads.deliver, hw, Worker.receive, Worker.next, ha]
    have hmoves : moves x es c = [.tick] := by
      simp [es, moves, step, TimerThreads.made, hnext]
    exact ⟨es, hend, view_of_moves ho hi hend hmoves rfl⟩

/-- **Moves can be made.** Whatever a timer without threads goes through, one with threads can go through. -/
theorem exists_run_of_performAll (name : ι → String) (speaker : ι → Option Speaker) (x : ι) {ms : List Move}
    {r : Noted Countdown} (h : performAll ms (.new (name x) (speaker x)) = some r) :
    ∃ es, ((run es (new name speaker)).timers x).stage = .idle ∧
      ((run es (new name speaker)).timers x).view = r.val := by
  induction ms using List.reverseRecOn generalizing r with
  | nil =>
    cases h
    exact ⟨[], rfl, TimerThreads.view_new _ _⟩
  | append_singleton ms m ih =>
    obtain ⟨first, last, hf, hl, rfl⟩ := Countdown.performAll_concat_eq_some_iff.1 h
    obtain ⟨es, hi, hview⟩ := ih hf
    have ho : ((run es (new name speaker)).timers x).Orderly := Reachable.orderly ⟨_, _, _, rfl⟩ x
    have hmore : ∃ es', ((run es' (run es (new name speaker))).timers x).stage = .idle ∧
        ((run es' (run es (new name speaker))).timers x).view = last.val := by
      cases m with
      | own op => exact exists_run_own ho hi (hview ▸ hl)
      | tick =>
        cases hl
        rw [← hview]
        exact exists_run_tick ho hi
    obtain ⟨es', hi', hview'⟩ := hmore
    refine ⟨es ++ es', ?_⟩
    rw [run, List.foldl_append]
    exact ⟨hi', hview'⟩

/-- between two operations of its owner a timer is as consistent as one without threads -/
theorem Reachable.consistent {c : SharedClock ι} (hc : c.Reachable) {x : ι} (hi : (c.timers x).stage = .idle) :
    (c.timers x).view.Consistent := by
  obtain ⟨name, speaker, es, rfl⟩ := hc
  obtain ⟨r, hr, hview⟩ := run_serial name speaker es x
  rw [(hview hi).1]
  exact (Countdown.consistent_new _ _).performAll hr

/-! ## Value, flag and task -/

/-- **Value, flag and task in step.** After any moves of a new timer:
- it counts just when it is enabled and above zero;
- while it is disabled it has no task, and only a `set` changes its value;
- a tick that its task takes finds a value above zero, and counts it down by one.

The same holds of its threads at every moment of every run. In the middle of an operation the owner may still have to
put the task away or to start it; so what it holds is told of the moments between two operations. -/
theorem task_in_step :
    (∀ name speaker ms r, performAll ms (.new name speaker) = some r →
      (r.val.running = true ↔ r.val.disabled = false ∧ 0 < r.val.value) ∧
      (r.val.disabled = true → r.val.task = none ∧
        ∀ m r', r.val.perform m = some r' → r'.val.value ≠ r.val.value → ∃ v, m = .own (.set v)) ∧
      (r.val.running = true → r.val.value ≠ 0 ∧ r.val.tick.val.value = r.val.value - 1)) ∧
    (∀ (c : SharedClock ι) (x : ι), c.Reachable →
      ((c.timers x).stage = .idle →
        ((c.timers x).view.running = true ↔ (c.timers x).disabled = false ∧ 0 < (c.timers x).value)) ∧
      ((c.timers x).disabled = true → (∀ k, (c.timers x).alive k = false) ∧
        ((c.timers x).stage = .idle → (c.timers x).handle = none) ∧
        ∀ e, ((c.step e).timers x).value ≠ (c.timers x).value →
          ∃ v, e = .thread x .act ∧ (c.timers x).stage = .commit (.store v)) ∧
      (∀ k i, (c.timers x).nextTick k = some i →
        (c.timers x).value ≠ 0 ∧ ((c.timers x).take k).value = (c.timers x).value - 1)) := by
  constructor
  · intro name speaker ms r hr
    have hcons : r.val.Consistent := (Countdown.consistent_new name speaker).performAll hr
    refine ⟨hcons.running_iff, fun hd => ⟨hcons.task_of_disabled hd, fun m r' hm hne => ?_⟩, fun hrun => ?_⟩
    · rcases Countdown.value_perform_ne hm hne with ⟨-, hrun⟩ | hset
      · have he := (hcons.running_iff.1 hrun).1
        simp [hd] at he
      · exact hset
    · have hv : r.val.value ≠ 0 := UInt8.pos_iff_ne_zero.1 (hcons.running_iff.1 hrun).2
      exact ⟨hv, Countdown.tick_value hrun hv⟩
  · intro c x hc
    have ho := hc.orderly x
    refine ⟨fun hi => (hc.consistent hi).running_iff, fun hd => ?_, fun k i hk => ?_⟩
    · have hnobody : ∀ k, (c.timers x).alive k = false := ho.not_alive_of_disabled hd
      refine ⟨hnobody, fun hi => ?_, fun e hne => ?_⟩
      · have htask : (c.timers x).task = none := (hc.consistent hi).task_of_disabled hd
        simpa [TimerThreads.task] using htask
      · rcases value_event_ne hne with ⟨k, i, -, hk⟩ | hstore
        · have halive := TimerThreads.alive_of_nextTick hk
          simp [hnobody k] at halive
        · exact hstore
    · have hv := (ho.counting k (TimerThreads.alive_of_nextTick hk)).1
      exact ⟨UInt8.pos_iff_ne_zero.1 hv, (TimerThreads.take_of_nextTick hk hv).1⟩

/-- Counted to its end, waited for, enabled once more and set again, the timer counts. Set while it is disabled, it does
not. A worker with a tick in its queue counts it down; a disabled timer holds no worker. -/
theorem in_step_after_expiry :
    (∃ r, performAll [.own (.set 1), .tick, .own .wait, .own .enable, .own (.set 3)] (.new "delay" none) = some r ∧
      r.val.running = true ∧ r.val.tick.val.value = 2) ∧
    (∃ r, performAll [.own (.set 2), .tick, .own .disable, .own (.set 7), .own .get] (.new "delay" none) = some r ∧
      r.val.value = 7 ∧ r.val.task = none) ∧
    (∃ c : SharedClock Bool, c.Reachable ∧ (c.timers true).nextTick 0 = some 0 ∧ ((c.timers true).take 0).value = 4) ∧
    ∃ c : SharedClock Bool, c.Reachable ∧ (c.timers true).value = 5 ∧ (c.timers true).handle = none := by
  obtain ⟨hmoves, hthreads⟩ := @task_in_step Bool _
  refine ⟨?_, ?_, ?_, ?_⟩
  · obtain ⟨hrun, -, htick⟩ := hmoves "delay" none [.own (.set 1), .tick, .own .wait, .own .enable, .own (.set 3)] _ rfl
    have hcounts := hrun.2 ⟨rfl, by decide⟩
    exact ⟨_, rfl, hcounts, (htick hcounts).2⟩
  · obtain ⟨-, hdisabled, -⟩ :=
      hmoves "delay" none [.own (.set 2), .tick, .own .disable, .own (.set 7), .own .get] _ rfl
    exact ⟨_, rfl, rfl, (hdisabled rfl).1⟩
  · let c : SharedClock Bool := run [.thread true (.call (.set 5)), .thread true .act, .thread true .act,
      .thread true .act, .thread true .act, .thread true .act, .tick] (new (fun _ => "delay") fun _ => none)
    obtain ⟨-, -, htake⟩ := hthreads c true ⟨_, _, _, rfl⟩
    have hnext : (c.timers true).nextTick 0 = some 0 := by decide +kernel
    have hvalue : (c.timers true).value = 5 := by decide +kernel
    have hcounted : ((c.timers true).take 0).value = 4 := by
      rw [(htake 0 0 hnext).2, hvalue]
      rfl
    exact ⟨c, ⟨_, _, _, rfl⟩, hnext, hcounted⟩
  · let c : SharedClock Bool := run [.thread true (.call .disable), .thread true .act, .thread true .act,
      .thread true .act, .thread true (.call (.set 5)), .thread true .act, .thread true .act, .thread true .act]
      (new (fun _ => "delay") fun _ => none)
    obtain ⟨-, hdisabled, -⟩ := hthreads c true ⟨_, _, _, rfl⟩
    have hd : (c.timers true).disabled = true := by decide +kernel
    exact ⟨c, ⟨_, _, _, rfl⟩, by decide +kernel, (hdisabled hd).2.1 (by decide +kernel)⟩

end SharedClock

end Chip8
