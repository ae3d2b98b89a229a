/-
A timer over time. A `Move` is one thing that happens to it: an operation of its owner, or a tick of the clock, taken by
the task if the timer counts. `performAll` carries moves out in order on a clock that ticks only when told to; there is
no outcome when the owner waits for a countdown that nobody moves on.

Results:
- `set_val`, `disable_val`, `enable_val`, `tick_val`: what each operation makes of value, flag and task;
- `performAll_append_eq_some_iff`, `performAll_concat_eq_some_iff`: moves after moves;
- `value_perform_ne`: a value is changed by a tick of a timer that counts and by `set`, and by nothing else;
- `Consistent.perform`, `Consistent.performAll`: a timer counts just when it is enabled and above zero, and a disabled
  one has no task.
-/
import Chip8.Timer

namespace Chip8

namespace Countdown

/-! ## Moves -/

/-- what the owner of a timer does with it -/
inductive Op where
  | set (value : UInt8)
  | get
  | disable
  | enable
  /-- wait until the countdown has come to its end -/
  | wait
  deriving DecidableEq, Repr

/-- one thing that happens to a timer -/
inductive Move where
  | own (op : Op)
  /-- a tick of the clock -/
  | tick
  deriving DecidableEq, Repr

/-- what a move leads to; none when the owner waits for ever -/
def perform (t : Countdown) : Move → Option (Noted Countdown)
  | .own (.set value) => some (t.set value)
  | .own .get => some (pure t)
  | .own .disable => some t.disable
  | .own .enable => some t.enable
  | .own .wait => t.waitExpired .manual
  | .tick => some t.tick

/-- carry out moves in order -/
def performAll : List Move → Countdown → Option (Noted Countdown)
  | [], t => some (pure t)
  | m :: ms, t => (t.perform m).bind fun first => (performAll ms first.val).map fun rest => do
    let _ ← first
    rest

/-- a timer that nothing has happened to, with or without a speaker -/
def new (name : String) : Option Speaker → Countdown
  | none => silent name
  | some speaker => sounding name speaker

@[simp] theorem performAll_nil (t : Countdown) : performAll [] t = some (pure t) := rfl

theorem performAll_cons_eq_some_iff {m : Move} {ms : List Move} {t : Countdown} {r : Noted Countdown} :
    performAll (m :: ms) t = some r ↔ ∃ first rest, t.perform m = some first ∧ performAll ms first.val = some rest ∧
      r = ⟨rest.val, first.notes ++ rest.notes⟩ := by
  simp only [performAll, Option.bind_eq_some_iff, Option.map_eq_some_iff]
  constructor
  · rintro ⟨first, hf, rest, hr, rfl⟩
    exact ⟨first, rest, hf, hr, rfl⟩
  · rintro ⟨first, rest, hf, hr, rfl⟩
    exact ⟨first, hf, rest, hr, rfl⟩

/-- carrying out one list after the other -/
theorem performAll_append_eq_some_iff {ms ms' : List Move} {t : Countdown} {r : Noted Countdown} :
    performAll (ms ++ ms') t = some r ↔ ∃ first rest, performAll ms t = some first ∧
      performAll ms' first.val = some rest ∧ r = ⟨rest.val, first.notes ++ rest.notes⟩ := by
  induction ms generalizing t r with
  | nil => simp
  | cons m ms ih =>
    simp only [List.cons_append, performAll_cons_eq_some_iff, ih]
    constructor
    · rintro ⟨a, -, ha, ⟨b, c, hb, hc, rfl⟩, rfl⟩
      exact ⟨_, c, ⟨a, b, ha, hb, rfl⟩, hc, by simp⟩
    · rintro ⟨-, c, ⟨a, b, ha, hb, rfl⟩, hc, rfl⟩
      exact ⟨a, _, ha, ⟨b, c, hb, hc, rfl⟩, by simp⟩

/-- carrying out one more move at the end -/
theorem performAll_concat_eq_some_iff {ms : List Move} {m : Move} {t : Countdown} {r : Noted Countdown} :
    performAll (ms ++ [m]) t = some r ↔ ∃ first last, performAll ms t = some first ∧ first.val.perform m = some last ∧
      r = ⟨last.val, first.notes ++ last.notes⟩ := by
  rw [performAll_append_eq_some_iff]
  simp only [performAll_cons_eq_some_iff, performAll_nil, Option.some.injEq]
  constructor
  · rintro ⟨first, -, hf, ⟨last, -, hl, rfl, rfl⟩, rfl⟩
    exact ⟨first, last, hf, hl, by simp⟩
  · rintro ⟨first, last, hf, hl, rfl⟩
    exact ⟨first, _, hf, ⟨last, _, hl, rfl, rfl⟩, by simp⟩

/-! ## What each operation leads to -/

@[simp] theorem cancel_val (t : Countdown) : t.cancel.val = { t with task := none } := by
  rcases t with ⟨name, speaker, value, disabled, _ | task⟩ <;> rfl

/-- switching the tone changes the speaker alone -/
theorem switchTone_val (t : Countdown) (on : Bool) :
    (t.switchTone on).val.1 = { t with speaker := (t.switchTone on).val.1.speaker } := by
  rcases t with ⟨name, _ | speaker, value, disabled, task⟩ <;> rfl

@[simp] theorem switchTone_value (t : Countdown) (on : Bool) : (t.switchTone on).val.1.value = t.value := by
  rw [switchTone_val]

@[simp] theorem switchTone_disabled (t : Countdown) (on : Bool) : (t.switchTone on).val.1.disabled = t.disabled := by
  rw [switchTone_val]

@[simp] theorem switchTone_task (t : Countdown) (on : Bool) : (t.switchTone on).val.1.task = t.task := by
  rw [switchTone_val]

@[simp] theorem toneOff_val (t : Countdown) : t.toneOff.val = (t.switchTone false).val.1 := by
  simp only [toneOff, Noted.val_bind]
  cases (t.switchTone false).val.2 <;> rfl

theorem set_val (t : Countdown) (value : UInt8) : (t.set value).val =
    if t.disabled then { t with value := value, task := none }
    else if value = 0 then ({ t with value := 0, task := none }.switchTone false).val.1
    else { t with value := value, task := some .counting } := by
  simp only [set, Noted.val_bind, cancel_val]
  split
  · rfl
  · split
    case isTrue h => rw [h, toneOff_val]
    case isFalse => rfl

theorem disable_val (t : Countdown) : t.disable.val = { t with disabled := true, task := none } := by
  simp only [disable, Noted.val_bind, cancel_val, Noted.val_pure]

theorem enable_val (t : Countdown) : t.enable.val =
    if t.value > 0 ∧ t.task = none then { t with disabled := false, task := some .counting }
    else { t with disabled := false } := by
  simp only [enable]
  split <;> rfl

/-- a wait that comes to an end puts the task away, which was over by then -/
theorem waitExpired_manual_eq_some_iff {t : Countdown} {r : Noted Countdown} :
    t.waitExpired .manual = some r ↔ t.running = false ∧ r = pure { t with task := none } := by
  simp only [waitExpired]
  split
  case isTrue h => simp [h]
  case isFalse h => simp [h, eq_comm]

theorem countOne_value (t : Countdown) : t.countOne.val.value = if t.value = 0 then 0 else t.value - 1 := by
  unfold countOne
  split
  case isTrue h => simp [h]
  case isFalse h =>
    split
    case isTrue h1 => simp [h1]
    case isFalse => simp

theorem countOne_task (t : Countdown) : t.countOne.val.task = if t.value ≤ 1 then some .spent else t.task := by
  unfold countOne
  split
  case isTrue h => simp [h]
  case isFalse h =>
    split
    case isTrue h1 => simp [h1]
    case isFalse h1 =>
      rw [if_neg]
      · simp
      · intro h2
        rcases UInt8.le_iff_lt_or_eq.1 h2 with h3 | h3
        · exact h (by simpa using h3)
        · exact h1 h3

@[simp] theorem countOne_disabled (t : Countdown) : t.countOne.val.disabled = t.disabled := by
  unfold countOne
  split
  · simp
  · split <;> simp

theorem tick_val (t : Countdown) : t.tick.val = if t.running then t.countOne.val else t := by
  unfold tick
  split <;> rfl

/-- the task goes on after a tick that leaves something to count -/
theorem running_tick {t : Countdown} (h : t.running = true) : t.tick.val.running = true ↔ 1 < t.value := by
  have ht : t.task = some .counting := by simpa [running] using h
  rw [tick_val, if_pos h, running, countOne_task, ht]
  by_cases hv : t.value ≤ 1
  · simp [hv, UInt8.not_lt.2 hv]
  · simp [hv, UInt8.not_le.1 hv]

theorem tick_value {t : Countdown} (h : t.running = true) (hv : t.value ≠ 0) : t.tick.val.value = t.value - 1 := by
  rw [tick_val, if_pos h, countOne_value, if_neg hv]

/-- the value is changed by a tick of a timer that counts and by `set` -/
theorem value_perform_ne {t : Countdown} {m : Move} {r : Noted Countdown} (hr : t.perform m = some r)
    (hne : r.val.value ≠ t.value) : (m = .tick ∧ t.running = true) ∨ ∃ value, m = .own (.set value) := by
  cases m with
  | tick =>
    cases hr
    rw [tick_val] at hne
    split at hne
    case isTrue h => exact .inl ⟨rfl, h⟩
    case isFalse => exact absurd rfl hne
  | own op =>
    cases op with
    | set value => exact .inr ⟨value, rfl⟩
    | get => cases hr; exact absurd rfl hne
    | disable =>
      cases hr
      rw [disable_val] at hne
      exact absurd rfl hne
    | enable =>
      cases hr
      rw [enable_val] at hne
      split at hne <;> exact absurd rfl hne
    | wait =>
      obtain ⟨-, rfl⟩ := waitExpired_manual_eq_some_iff.1 hr
      exact absurd rfl hne

/-! ## Counting, value and flag -/

/-- the timer counts just when it is enabled and above zero, and a disabled timer has no task -/
structure Consistent (t : Countdown) : Prop where
  running_iff : t.running = true ↔ t.disabled = false ∧ 0 < t.value
  task_of_disabled : t.disabled = true → t.task = none

theorem consistent_new (name : String) (speaker : Option Speaker) : (new name speaker).Consistent := by
  cases speaker with
  | none => exact ⟨by simp [new, silent, running], fun h => by cases h⟩
  | some speaker => exact ⟨by simp [new, sounding, running], fun h => by cases h⟩

namespace Consistent

variable {t : Countdown}

theorem set (value : UInt8) : (t.set value).val.Consistent := by
  rw [set_val]
  cases hd : t.disabled with
  | true => exact ⟨by simp [running], fun _ => rfl⟩
  | false =>
    by_cases h0 : value = 0
    · exact ⟨by simp [running, h0], fun h => by simp [h0] at h⟩
    · exact ⟨by simp [running, h0, UInt8.pos_iff_ne_zero], fun h => by simp [h0] at h⟩

theorem disable : t.disable.val.Consistent := by
  rw [disable_val]
  exact ⟨by simp [running], fun _ => rfl⟩

theorem enable (h : t.Consistent) : t.enable.val.Consistent := by
  rw [enable_val]
  split
  case isTrue hs => exact ⟨by simpa [running] using hs.1, fun h => by cases h⟩
  case isFalse hs =>
    refine ⟨?_, fun h => by cases h⟩
    cases hd : t.disabled with
    | false => simpa [running, hd] using h.running_iff
    | true => simpa [running, h.task_of_disabled hd] using hs

theorem tick (h : t.Consistent) : t.tick.val.Consistent := by
  rw [tick_val]
  split
  case isFalse => exact h
  case isTrue hr =>
    obtain ⟨hd, hv⟩ := h.running_iff.1 hr
    have hv0 : t.value ≠ 0 := UInt8.pos_iff_ne_zero.1 hv
    have hrun := running_tick hr
    rw [tick_val, if_pos hr] at hrun
    refine ⟨?_, fun h => by simp [hd] at h⟩
    rw [hrun, countOne_disabled, countOne_value, if_neg hv0, hd]
    grind

/-- every move keeps value, flag and task in step -/
theorem perform (h : t.Consistent) {m : Move} {r : Noted Countdown} (hr : t.perform m = some r) :
    r.val.Consistent := by
  cases m with
  | tick => cases hr; exact h.tick
  | own op =>
    cases op with
    | set value => cases hr; exact set value
    | get => cases hr; exact h
    | disable => cases hr; exact disable
    | enable => cases hr; exact h.enable
    | wait =>
      obtain ⟨hn, rfl⟩ := waitExpired_manual_eq_some_iff.1 hr
      have hv : ¬ (t.disabled = false ∧ 0 < t.value) := fun hv => by simp [h.running_iff.2 hv] at hn
      exact ⟨by simpa [running] using hv, fun _ => rfl⟩

theorem performAll (h : t.Consistent) {ms : List Move} {r : Noted Countdown} (hr : performAll ms t = some r) :
    r.val.Consistent := by
  induction ms generalizing t r with
  | nil => cases hr; exact h
  | cons m ms ih =>
    obtain ⟨first, rest, hf, hrest, rfl⟩ := performAll_cons_eq_some_iff.1 hr
    have hkept : rest.val.Consistent := ih (h.perform hf) hrest
    exact hkept

end Consistent

end Countdown

end Chip8
