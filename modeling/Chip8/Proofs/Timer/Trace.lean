/-
What a speaker hears of a countdown. From the moment a value is stored in an enabled timer, each tick that is taken
switches the tone on, and the last one switches it off after that; later ticks find no task. Neither what the timer did
before nor what the speaker answers makes a difference.

With threads the ticks that count are those that the new worker takes: the old one is gone when the value is stored, and
what it left in its queue is never taken.

Results:
- `Countdown.Along.tick`: one tick of a countdown;
- `TimerThreads.Sounding.step`: one step of any thread of the timer;
- `countdown_traced`: value, task and calls after any number of ticks, with threads and without.
-/
import Chip8.Proofs.Timer.Restart
import Chip8.Proofs.Timer.Serial
import Chip8.Proofs.Timer.Tone

namespace Chip8

namespace Countdown

/-! ## Ticks in a row -/

/-- the calls of the first `n` ticks of a countdown from `v`: on with each tick that finds something to count, and off
after the last of them -/
def trace (v n : Nat) : List Bool :=
  List.replicate (min n v) true ++ if v ≤ n then [false] else []

theorem trace_zero {v : Nat} (h : 0 < v) : trace v 0 = [] := by
  rw [trace, if_neg (by omega), Nat.zero_min]
  rfl

theorem trace_succ_of_lt {v n : Nat} (h : n < v) {value : UInt8} (hvalue : value.toNat = v - n) :
    trace v (n + 1) = trace v n ++ ticked value := by
  have hmin : min (n + 1) v = n + 1 := by omega
  have hmin' : min n v = n := by omega
  have h0 : value ≠ 0 := by
    rintro rfl
    simp at hvalue
    omega
  simp only [trace, ticked, hmin, hmin', List.replicate_succ', if_neg h0]
  by_cases h1 : value = 1
  · have hlast : v = n + 1 := by
      rw [h1] at hvalue
      simp at hvalue
      omega
    simp [h1, hlast]
  · have hmore : ¬ v ≤ n + 1 := by
      intro hle
      apply h1
      rw [← UInt8.toNat_inj]
      simp
      omega
    simp [h1, hmore]
    omega

theorem trace_succ_of_le {v n : Nat} (h : v ≤ n) : trace v (n + 1) = trace v n := by
  have hmin : min (n + 1) v = min n v := by omega
  rw [trace, trace, hmin, if_pos h, if_pos (Nat.le_succ_of_le h)]

/-- `n` ticks after the start of a countdown from `v`, with its speaker recorded -/
structure Along (v n : Nat) (t : Countdown) : Prop where
  recorded : t.Recorded
  value_eq : t.value.toNat = v - n
  running_eq : t.running = decide (n < v)

/-- **One tick.** -/
theorem Along.tick {v n : Nat} {t : Countdown} (h : Along v n t) :
    Along v (n + 1) t.tick.val ∧ trace v (n + 1) = trace v n ++ Note.tones t.tick.notes := by
  obtain ⟨hrecorded, hcalls⟩ := perform_tones h.recorded (m := .tick) rfl
  rw [hcalls, calls]
  have hvalue := h.value_eq
  by_cases hlt : n < v
  · have hrun : t.running = true := by rw [h.running_eq, decide_eq_true hlt]
    have h0 : t.value ≠ 0 := by
      intro h0
      rw [h0] at hvalue
      simp at hvalue
      omega
    have hone : (t.value - 1).toNat = t.value.toNat - 1 := by
      rw [UInt8.toNat_sub_of_le _ _ (by grind)]
      rfl
    rw [if_pos hrun]
    refine ⟨⟨hrecorded, ?_, ?_⟩, trace_succ_of_lt hlt hvalue⟩
    · rw [tick_value hrun h0, hone]
      omega
    · rw [Bool.eq_iff_iff, running_tick hrun, decide_eq_true_iff, UInt8.lt_iff_toNat_lt, hvalue]
      simp
      omega
  · have hstopped : t.running = false := by rw [h.running_eq, decide_eq_false hlt]
    have hsame : t.tick.val = t := by rw [tick_val, if_neg (by simp [hstopped])]
    rw [hstopped, hsame]
    refine ⟨⟨h.recorded, by omega, ?_⟩, ?_⟩
    · rw [hstopped, eq_comm, decide_eq_false_iff_not]
      omega
    · simpa using trace_succ_of_le (Nat.not_lt.1 hlt)

/-- **Ticks.** -/
theorem Along.ticks {v : Nat} {t : Countdown} (h : Along v 0 t) (hv : 0 < v) (n : Nat) :
    ∃ q, performAll (List.replicate n .tick) t = some q ∧ Along v n q.val ∧ Note.tones q.notes = trace v n := by
  induction n with
  | zero => exact ⟨pure t, rfl, h, (trace_zero hv).symm⟩
  | succ n ih =>
    obtain ⟨q, hq, halong, hcalls⟩ := ih
    obtain ⟨hnext, htrace⟩ := halong.tick
    refine ⟨⟨q.val.tick.val, q.notes ++ q.val.tick.notes⟩, ?_, hnext, ?_⟩
    · rw [List.replicate_succ']
      exact performAll_concat_eq_some_iff.2 ⟨q, q.val.tick, hq, rfl, rfl⟩
    · rw [Note.tones_append, hcalls, htrace]

/-- a value that is stored in an enabled timer is the start of a countdown, and makes no call -/
theorem along_set {t : Countdown} (h : t.Recorded) (henabled : t.disabled = false) {v : UInt8} (hv : 0 < v) :
    Along v.toNat 0 (t.set v).val ∧ Note.tones (t.set v).notes = [] := by
  obtain ⟨hrecorded, hcalls⟩ := h.set v
  have h0 : v ≠ 0 := UInt8.pos_iff_ne_zero.1 hv
  have hval : (t.set v).val = { t with value := v, task := some .counting } := by
    rw [set_val, henabled, if_neg (by simp), if_neg h0]
  refine ⟨⟨hrecorded, ?_, ?_⟩, ?_⟩
  · rw [hval, Nat.sub_zero]
  · rw [hval, eq_comm]
    exact decide_eq_true hv
  · rw [hcalls, calls, if_neg (fun hzero => h0 hzero.2)]

/-- what is left after `n` ticks of a countdown from `v`, whether it goes on, and the calls that it made -/
structure TracedTo (v : UInt8) (n : Nat) (t : Countdown) (calls : List Bool) : Prop where
  value_eq : t.value.toNat = v.toNat - n
  running_eq : t.running = decide (n < v.toNat)
  calls_eq : calls = trace v.toNat n

end Countdown

namespace TimerThreads

open Countdown (trace ticked)

/-! ## One worker's count -/

/-- the calls that a step makes on the speaker -/
def heard (p : TimerThreads) : Step → List Bool
  | .take k => if p.nextTick k = none then [] else Note.tones (p.counter (some .counting)).countOne.notes
  | .act => if p.stage = .silence then Note.tones (p.counter none).toneOff.notes else []
  | .call _ | .leave _ => []

/-- whatever a thread does, the record of the calls goes on -/
theorem recorded_step {p : TimerThreads} (h : (p.counter none).Recorded) (s : Step) :
    ((p.step s).counter none).Recorded := by
  cases s with
  | leave k => exact h
  | call op =>
    simp only [step]
    split <;> exact h
  | take k =>
    simp only [step, take]
    cases p.nextTick k with
    | none => exact h
    | some i =>
      have hcounting : (p.counter (some .counting)).Recorded := h
      exact hcounting.countOne.1
  | act =>
    simp only [step, act]
    split
    case h_6 => exact h.toneOff.1
    case h_3 => split <;> exact h
    case h_10 => split <;> exact h
    all_goals exact h

/-- worker `k` counts down from `v`, and these are the calls since the value was stored -/
structure Sounding (v : UInt8) (k : Nat) (p : TimerThreads) (calls : List Bool) : Prop where
  orderly : p.Orderly
  counted : Counted v k p
  enabled : p.disabled = false
  not_silence : p.stage ≠ .silence
  recorded : (p.counter none).Recorded
  calls_eq : calls = trace v.toNat (p.takenBy k)

namespace Sounding

variable {v : UInt8} {k : Nat} {p : TimerThreads} {calls : List Bool}

/-- a value that is stored above zero is about to be counted down -/
theorem of_stored (ho : p.Orderly) (hs : p.stage = .commit (.store v)) (he : p.disabled = false) (hv : 0 < v)
    (hr : (p.counter none).Recorded) : Sounding v p.workers.length p.act (p.heard .act) := by
  have hcounted : Counted v p.workers.length p.act := .of_stored ho hs
  have hstored : p.act = { p with value := v, stage := .register } := by
    simp [TimerThreads.act, hs, he, UInt8.pos_iff_ne_zero.1 hv]
  have hnone : p.act.takenBy p.workers.length = 0 := by
    rw [hstored]
    exact p.takenBy_length
  refine ⟨ho.act, hcounted, by rw [hstored]; exact he, by simp [hstored], by rw [hstored]; exact hr, ?_⟩
  have hpos : 0 < v.toNat := hv
  rw [hnone, Countdown.trace_zero hpos]
  simp [heard, hs]

/-- while the value stays as it is no tick is taken, so a step that leaves value and speaker alone is not heard -/
theorem of_same (h : Sounding v k p calls) {p' : TimerThreads} (ho : p'.Orderly) (hc : Counted v k p')
    (hsame : p'.counter none = p.counter none) (hs : p'.stage ≠ .silence) : Sounding v k p' calls := by
  have hvalue : p'.value = p.value := congrArg Countdown.value hsame
  have hdisabled : p'.disabled = p.disabled := congrArg Countdown.disabled hsame
  have htaken : p'.takenBy k = p.takenBy k := by
    have hsum := h.counted.sum
    have hsum' := hc.sum
    rw [hvalue] at hsum'
    omega
  refine ⟨ho, hc, hdisabled.trans h.enabled, hs, hsame ▸ h.recorded, ?_⟩
  rw [htaken]
  exact h.calls_eq

theorem deliver (h : Sounding v k p calls) (i : Nat) : Sounding v k (p.deliver i) calls :=
  h.of_same (h.orderly.deliver i) (h.counted.deliver i) rfl h.not_silence

/-- only its own worker takes ticks, and each of them is heard as a tick of the countdown -/
theorem take (h : Sounding v k p calls) (j : Nat) : Sounding v k (p.take j) (calls ++ p.heard (.take j)) := by
  have hcounted : Counted v k (p.take j) := h.counted.take h.orderly j
  obtain ⟨hstage, hdisabled, -⟩ := p.take_frame j
  cases hi : p.nextTick j with
  | none => simpa [TimerThreads.take, heard, hi] using h
  | some i =>
    have hj : p.alive j = true := alive_of_nextTick hi
    obtain rfl : j = k := h.counted.others j hj
    have hv : 0 < p.value := (h.orderly.counting j hj).1
    have hcounting : (p.counter (some .counting)).Recorded := h.recorded
    obtain ⟨hrecorded, hcalls⟩ := hcounting.countOne
    have htaken : (p.take j).takenBy j = p.takenBy j + 1 := by
      rw [(take_of_nextTick hi hv).2.2, if_pos rfl]
    refine ⟨h.orderly.take j, hcounted, hdisabled.trans h.enabled, hstage ▸ h.not_silence, ?_, ?_⟩
    · simp only [TimerThreads.take, hi]
      exact hrecorded
    · have hsum : p.value.toNat + p.takenBy j = v.toNat := h.counted.sum
      have hleft : 0 < p.value.toNat := hv
      have hheard : p.heard (.take j) = ticked p.value := by
        rw [heard, if_neg (by simp [hi]), hcalls]
        rfl
      calc calls ++ p.heard (.take j)
          = trace v.toNat (p.takenBy j) ++ ticked p.value := by rw [h.calls_eq, hheard]
        _ = trace v.toNat (p.takenBy j + 1) := (Countdown.trace_succ_of_lt (by omega) (by omega)).symm
        _ = trace v.toNat ((p.take j).takenBy j) := by rw [htaken]

theorem act (h : Sounding v k p calls) : Sounding v k p.act (calls ++ p.heard .act) := by
  have hquiet : p.heard .act = [] := if_neg h.not_silence
  rw [hquiet, List.append_nil]
  refine h.of_same h.orderly.act (h.counted.act h.orderly) ?_ ?_
  · rcases h.counted.stage with hs | hs | hs | hs | hs <;> simp only [TimerThreads.act, hs]
    · rfl
    · rfl
    · exact absurd hs h.not_silence
    · split <;> rfl
  · rcases h.counted.stage with hs | hs | hs | hs | hs <;> simp only [TimerThreads.act, hs]
    · simp
    · simp [TimerThreads.spawned]
    · exact absurd hs h.not_silence
    · simp
    · split <;> simp [hs]

/-- **One step.** Of all steps of the timer's threads, only the ticks that the worker takes are heard. -/
theorem step (h : Sounding v k p calls) (s : Step) (hs : ∀ op, s = .call op → op = .get ∨ op = .wait) :
    Sounding v k (p.step s) (calls ++ p.heard s) := by
  cases s with
  | act => exact h.act
  | take j => exact h.take j
  | leave j =>
    rw [heard, List.append_nil]
    exact h.of_same (h.orderly.leave j) (h.counted.step h.orderly (.leave j) hs) rfl h.not_silence
  | call op =>
    rw [heard, List.append_nil]
    refine h.of_same (h.orderly.step _) (h.counted.step h.orderly (.call op) hs) ?_ ?_
    · simp only [TimerThreads.step]
      split <;> rfl
    · simp only [TimerThreads.step]
      split
      · rcases hs op rfl with rfl | rfl <;> simp [plan]
      · exact h.not_silence

/-- what the owner sees of the count between two operations -/
theorem tracedTo (h : Sounding v k p calls) (hi : p.stage = .idle) :
    Countdown.TracedTo v (p.takenBy k) p.view calls := by
  have hsum : p.value.toNat + p.takenBy k = v.toNat := h.counted.sum
  have halive : p.alive k = true ↔ 0 < p.value := by
    have hready := h.counted.ready
    simp only [hi] at hready
    exact hready h.enabled
  have hvalue : p.view.value = p.value := rfl
  refine ⟨by rw [hvalue]; omega, ?_, h.calls_eq⟩
  rw [running_view, Bool.eq_iff_iff, decide_eq_true_iff]
  constructor
  · intro hheld
    obtain ⟨j, -, hj⟩ := held_eq_true_iff.1 hheld
    obtain rfl := h.counted.others j hj
    have hleft : 0 < p.value.toNat := halive.1 hj
    omega
  · intro hlt
    have hk : p.alive k = true := halive.2 (UInt8.lt_iff_toNat_lt.2 (show 0 < p.value.toNat by omega))
    exact held_eq_true_iff.2 ⟨k, h.orderly.held k hk, hk⟩

/-- when everything is counted no tick is left to be taken -/
theorem nextTick_eq_none (h : Sounding v k p calls) (hend : p.takenBy k = v.toNat) (j : Nat) : p.nextTick j = none := by
  by_contra hne
  obtain ⟨i, hi⟩ := Option.ne_none_iff_exists'.1 hne
  have hleft : 0 < p.value.toNat := (h.orderly.counting j (alive_of_nextTick hi)).1
  have hsum := h.counted.sum
  omega

end Sounding

end TimerThreads

namespace SharedClock

open TimerThreads
open Countdown (Move performAll sounding TracedTo)

variable {ι : Type} [DecidableEq ι]

/-- the calls on the speaker of timer `x` in a run -/
def heard (x : ι) : List (Event ι) → SharedClock ι → List Bool
  | [], _ => []
  | .tick :: es, c => heard x es (c.step .tick)
  | .thread y s :: es, c => (if y = x then (c.timers x).heard s else []) ++ heard x es (c.step (.thread y s))

/-- **Runs.** What each step keeps, a run keeps, and all that is heard is the countdown. -/
theorem sounding_run {v : UInt8} {k : Nat} {x : ι} (es : List (Event ι)) {c : SharedClock ι} {calls : List Bool}
    (hcalls : ∀ op, .thread x (.call op) ∈ es → op = .get ∨ op = .wait) (h : Sounding v k (c.timers x) calls) :
    Sounding v k ((run es c).timers x) (calls ++ heard x es c) := by
  induction es generalizing c calls with
  | nil => simpa [heard, run] using h
  | cons e es ih =>
    have hrest : ∀ op, .thread x (.call op) ∈ es → op = .get ∨ op = .wait := fun op hop =>
      hcalls op (List.mem_cons_of_mem e hop)
    cases e with
    | tick => exact ih (c := c.step .tick) hrest (h.deliver c.issued)
    | thread y s =>
      by_cases hy : y = x
      · subst hy
        have hnext := h.step s fun op e => hcalls op (e ▸ List.mem_cons_self)
        have hrun := ih (c := c.step (.thread y s)) hrest (by simpa [SharedClock.step] using hnext)
        simpa [heard] using hrun
      · have hother : (c.step (.thread y s)).timers x = c.timers x := by simp [SharedClock.step, Ne.symm hy]
        have hrun := ih (c := c.step (.thread y s)) hrest (by rwa [hother])
        simpa [heard, hy] using hrun

/-- a timer with a recorded speaker keeps it, whatever happens -/
theorem recorded_run {x : ι} (es : List (Event ι)) {c : SharedClock ι}
    (h : ((c.timers x).counter none).Recorded) : (((run es c).timers x).counter none).Recorded :=
  run_keeps es (P := fun _ p => (p.counter none).Recorded) (fun _ _ h => h) (fun _ _ s _ h => recorded_step h s) h

/-- **Countdowns heard.** After any moves of a new timer with a speaker, let the timer be enabled, and let a value
above zero be set. Then after any number of ticks the value is what they left of it, the timer counts while any is left,
and the calls that the speaker got since the value was set are the trace of the countdown. With threads the same holds
of the ticks that the new worker takes, from the moment when the value is stored, while no other operation than `get`
and `wait` is called; once they are as many as the value, there is none that any worker could take. Earlier moves make
no difference to this, nor does what the speaker answers. -/
theorem countdown_traced :
    (∀ name answers later ms (r : Noted Countdown) (v : UInt8) (n : Nat),
      performAll ms (sounding name (.recorder answers later)) = some r → r.val.disabled = false → 0 < v →
      ∃ q, performAll (.own (.set v) :: List.replicate n .tick) r.val = some q ∧
        TracedTo v n q.val (Note.tones q.notes)) ∧
    (∀ (name : ι → String) (speaker : ι → Option Speaker) (x : ι) answers later before es (v : UInt8)
      (c c' : SharedClock ι) (n : Nat),
      speaker x = some (.recorder answers later) → c = run before (new name speaker) →
      (c.timers x).stage = .commit (.store v) → (c.timers x).disabled = false → 0 < v →
      (∀ op, .thread x (.call op) ∈ es → op = .get ∨ op = .wait) →
      c' = run (.thread x .act :: es) c → n = (c'.timers x).takenBy (c.timers x).workers.length →
      n ≤ v.toNat ∧
      ((c'.timers x).stage = .idle → TracedTo v n (c'.timers x).view (heard x (.thread x .act :: es) c)) ∧
      (n = v.toNat → ∀ j, (c'.timers x).nextTick j = none)) := by
  constructor
  · intro name answers later ms r v n hr hd hv
    have hrecorded : r.val.Recorded :=
      Countdown.performAll_recorded (Countdown.recorded_sounding name answers later) hr
    obtain ⟨halong, hcall⟩ := Countdown.along_set hrecorded hd hv
    obtain ⟨q, hq, ⟨-, hvalue, hrun⟩, hcalls⟩ := halong.ticks hv n
    refine ⟨⟨q.val, (r.val.set v).notes ++ q.notes⟩, ?_, hvalue, hrun, ?_⟩
    · exact Countdown.performAll_cons_eq_some_iff.2 ⟨r.val.set v, q, rfl, hq, rfl⟩
    · rw [Note.tones_append, hcall, hcalls]
      rfl
  · rintro name speaker x answers later before es v c c' n hspeaker rfl hs hd hv hcalls rfl rfl
    set c := run before (new name speaker) with hc
    have ho : (c.timers x).Orderly := Reachable.orderly ⟨name, speaker, before, hc⟩ x
    have hrecorded : ((c.timers x).counter none).Recorded := recorded_run before ⟨answers, later, hspeaker⟩
    have hstored := Sounding.of_stored ho hs hd hv hrecorded
    have hact : (c.step (.thread x .act)).timers x = (c.timers x).act := by
      simp [SharedClock.step, TimerThreads.step]
    have hsounding := sounding_run es (c := c.step (.thread x .act)) hcalls (by rwa [hact])
    refine ⟨?_, fun hi => ?_, fun hend => hsounding.nextTick_eq_none hend⟩
    · have hsum := hsounding.counted.sum
      rw [run_cons]
      omega
    · have htraced := hsounding.tracedTo hi
      rw [heard, if_pos rfl]
      exact htraced

/-- a speaker that refuses every second call and then goes away -/
def unsteady : Speaker :=
  .recorder [none, some "busy", none, some "busy"] (some "gone")

/-- The first timer is set to five, and its worker leaves a tick in its queue. Then three are about to be stored. -/
def restarting : SharedClock Bool :=
  run [.thread true (.call (.set 5)), .thread true .act, .thread true .act, .thread true .act, .thread true .act,
    .thread true .act, .tick, .thread true (.take 0), .tick, .thread true (.call (.set 3)), .thread true .act,
    .thread true (.leave 0), .thread true .act] (new (fun _ => "sound") fun _ => some unsteady)

/-- four ticks, of which the new worker takes those that it can -/
def fourTicks : List (Event Bool) :=
  [.thread true .act, .tick, .thread true .act, .thread true (.take 1), .tick, .thread true (.take 0), .tick,
    .thread true (.take 1), .thread true (.call .get), .thread true .act, .thread true (.take 1), .tick,
    .thread true (.take 1)]

/-- A countdown is cut off after a tick, its timer disabled and enabled again; then three are set and five ticks come.
With threads a tick of the old worker is still in its queue when the three are stored. -/
theorem three_heard :
    (∃ r q, performAll [.own (.set 9), .tick, .own .disable, .own .enable] (sounding "sound" unsteady) = some r ∧
      performAll (.own (.set 3) :: List.replicate 5 .tick) r.val = some q ∧
      q.val.value = 0 ∧ q.val.running = false ∧ Note.tones q.notes = [true, true, true, false]) ∧
    ∃ p, p = (run (.thread true .act :: fourTicks) restarting).timers true ∧
      p.takenBy 1 = 3 ∧ p.view.value = 0 ∧ p.view.running = false ∧ (∀ j, p.nextTick j = none) ∧
      heard true (.thread true .act :: fourTicks) restarting = [true, true, true, false] := by
  obtain ⟨hmoves, hthreads⟩ := @countdown_traced Bool _
  constructor
  · obtain ⟨q, hq, htraced⟩ := hmoves "sound" [none, some "busy", none, some "busy"] (some "gone")
      [.own (.set 9), .tick, .own .disable, .own .enable] _ 3 5 rfl rfl (by decide)
    refine ⟨_, q, rfl, hq, ?_, ?_, htraced.calls_eq⟩
    · exact UInt8.toNat_inj.1 htraced.value_eq
    · exact htraced.running_eq
  · have htaken : ((run (.thread true .act :: fourTicks) restarting).timers true).takenBy
        (restarting.timers true).workers.length = 3 := by
      decide +kernel
    obtain ⟨-, htraced, hnone⟩ := hthreads (fun _ => "sound") (fun _ => some unsteady) true
      [none, some "busy", none, some "busy"] (some "gone") _ fourTicks 3 restarting _ _ rfl rfl (by decide +kernel)
      (by decide +kernel) (by decide) (by simp [fourTicks]) rfl rfl
    have hthree := htraced (by decide +kernel)
    rw [htaken] at hthree hnone
    refine ⟨_, rfl, htaken, ?_, hthree.running_eq, hnone rfl, hthree.calls_eq⟩
    exact UInt8.toNat_inj.1 hthree.value_eq

end SharedClock

end Chip8
