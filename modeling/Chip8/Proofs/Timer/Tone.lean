/-
When a timer leaves its tone on. A timer holds a tone while it counts: each tick switches it on, the last one and a zero
that is set switch it off. A countdown that is given up by `disable` is the gap: nothing switches the tone off, and as
long as the timer is disabled nothing will, not even a zero.

The tone is not part of the timer's state; it is the last call among those made on the speaker, so the results speak
about all calls of a run, whatever the speaker answers to them.

Results:
- `perform_tones`: which calls a move makes;
- `stopped_cases`: the three ways in which a move can leave a timer that does not count;
- `tone_on_iff_disabled_while_on`: the tone of a timer that does not count is on just when a `disable` cut off a
  countdown with the tone on, and no call was made since;
- `disable_leaves_tone_on`: that happens.
-/
import Mathlib.Data.List.Induction
import Chip8.Proofs.Timer.History

namespace Chip8

@[simp] theorem Note.tones_append (l l' : List Note) : tones (l ++ l') = tones l ++ tones l' :=
  List.filterMap_append

namespace Countdown

/-! ## Calls on the speaker -/

/-- the timer's speaker keeps a record of the calls -/
def Recorded (t : Countdown) : Prop :=
  ∃ answers later, t.speaker = some (.recorder answers later)

theorem recorded_sounding (name : String) (answers : List (Option String)) (later : Option String) :
    (sounding name (.recorder answers later)).Recorded :=
  ⟨answers, later, rfl⟩

/-- a recorded timer stays recorded when its tone is switched, and the call is on record -/
theorem Recorded.switchTone {t : Countdown} (h : t.Recorded) (on : Bool) :
    (t.switchTone on).val.1.Recorded ∧ Note.tones (t.switchTone on).notes = [on] := by
  rcases t with ⟨name, speaker, value, disabled, task⟩
  obtain ⟨_ | ⟨answer, answers⟩, later, rfl⟩ := h
  · exact ⟨⟨[], later, rfl⟩, rfl⟩
  · exact ⟨⟨answers, later, rfl⟩, rfl⟩

theorem Recorded.toneOff {t : Countdown} (h : t.Recorded) :
    t.toneOff.val.Recorded ∧ Note.tones t.toneOff.notes = [false] := by
  obtain ⟨hr, ht⟩ := h.switchTone false
  refine ⟨by rwa [toneOff_val], ?_⟩
  simp only [Countdown.toneOff, Noted.notes_bind, Note.tones_append, ht]
  cases (t.switchTone false).val.2 <;> rfl

theorem tones_cancel (t : Countdown) : Note.tones t.cancel.notes = [] := by
  rcases t with ⟨name, speaker, value, disabled, _ | task⟩ <;> rfl

/-- the calls of a tick that is taken with a value left -/
def ticked (value : UInt8) : List Bool :=
  if value = 0 then [false] else if value = 1 then [true, false] else [true]

/-- the tick that ends a countdown switches the tone off -/
theorem ticked_getLast? {value : UInt8} (h : value ≤ 1) : (ticked value).getLast? = some false := by
  unfold ticked
  split
  case isTrue => rfl
  case isFalse h0 =>
    rw [if_pos (by grind)]
    rfl

theorem Recorded.countOne {t : Countdown} (h : t.Recorded) :
    t.countOne.val.Recorded ∧ Note.tones t.countOne.notes = ticked t.value := by
  unfold Countdown.countOne ticked
  split
  case isTrue => exact ⟨(h.switchTone false).1, by simpa using (h.switchTone false).2⟩
  case isFalse =>
    split
    case isTrue =>
      have h0 : { t with value := 0 }.Recorded := h
      obtain ⟨hon, ton⟩ := h0.switchTone true
      obtain ⟨hoff, toff⟩ := hon.switchTone false
      exact ⟨hoff, by simp [ton, toff]⟩
    case isFalse =>
      have h1 : { t with value := t.value - 1 }.Recorded := h
      obtain ⟨hon, ton⟩ := h1.switchTone true
      exact ⟨hon, by simp [ton]⟩

/-- the calls that a move makes -/
def calls (t : Countdown) : Move → List Bool
  | .own (.set value) => if t.disabled = false ∧ value = 0 then [false] else []
  | .tick => if t.running then ticked t.value else []
  | .own _ => []

theorem Recorded.set {t : Countdown} (h : t.Recorded) (value : UInt8) :
    (t.set value).val.Recorded ∧ Note.tones (t.set value).notes = t.calls (.own (.set value)) := by
  have h' : ∀ disabled, Recorded ⟨t.name, t.speaker, value, disabled, none⟩ := fun _ => h
  simp only [Countdown.set, cancel_val, Noted.val_bind, Noted.notes_bind, Note.tones_append, tones_cancel, calls]
  cases t.disabled with
  | true => exact ⟨h' true, rfl⟩
  | false =>
    by_cases h0 : value = 0
    · simpa [h0] using (h' false).toneOff
    · rw [if_neg (by simp), if_neg h0, if_neg (by simp [h0])]
      exact ⟨h, rfl⟩

theorem perform_tones {t : Countdown} (h : t.Recorded) {m : Move} {r : Noted Countdown} (hr : t.perform m = some r) :
    r.val.Recorded ∧ Note.tones r.notes = t.calls m := by
  cases m with
  | tick =>
    cases hr
    unfold tick calls
    split
    · exact h.countOne
    · exact ⟨h, rfl⟩
  | own op =>
    cases op with
    | set value => cases hr; exact h.set value
    | get => cases hr; exact ⟨h, rfl⟩
    | disable =>
      cases hr
      have hv : t.disable.val.Recorded := by rw [disable_val]; exact h
      exact ⟨hv, by simp [disable, tones_cancel, calls]⟩
    | enable =>
      cases hr
      simp only [enable]
      split <;> exact ⟨h, rfl⟩
    | wait =>
      obtain ⟨-, rfl⟩ := waitExpired_manual_eq_some_iff.1 hr
      exact ⟨h, rfl⟩

theorem performAll_recorded {t : Countdown} (h : t.Recorded) {ms : List Move} {r : Noted Countdown}
    (hr : performAll ms t = some r) : r.val.Recorded := by
  induction ms generalizing t r with
  | nil => cases hr; exact h
  | cons m ms ih =>
    obtain ⟨first, rest, hf, hrest, rfl⟩ := performAll_cons_eq_some_iff.1 hr
    have hkept : rest.val.Recorded := ih (perform_tones h hf).1 hrest
    exact hkept

/-! ## Timers that do not count -/

/-- **How a move leaves a timer that does not count.** Its last call switched the tone off; or it made no call and the
timer did not count before; or it is a `disable` of a timer that counted. -/
theorem stopped_cases {t : Countdown} (h : t.Consistent) {m : Move} {r : Noted Countdown} (hr : t.perform m = some r)
    (hs : r.val.running = false) :
    (t.calls m).getLast? = some false ∨ t.calls m = [] ∧ (t.running = false ∨ m = .own .disable) := by
  cases m with
  | tick =>
    cases hr
    cases ht : t.running with
    | false => exact .inr ⟨by simp [calls, ht], .inl rfl⟩
    | true =>
      have hv : ¬ 1 < t.value := fun hv => by simp [(running_tick ht).2 hv] at hs
      left
      rw [calls, if_pos ht]
      exact ticked_getLast? (UInt8.not_lt.1 hv)
  | own op =>
    cases op with
    | set value =>
      cases hr
      rw [set_val] at hs
      cases hd : t.disabled with
      | true =>
        exact .inr ⟨by simp [calls, hd], .inl (by simp [running, h.task_of_disabled hd])⟩
      | false =>
        by_cases h0 : value = 0
        · exact .inl (by simp [calls, hd, h0])
        · simp [hd, h0, running] at hs
    | get => cases hr; exact .inr ⟨rfl, .inl hs⟩
    | disable => exact .inr ⟨rfl, .inr rfl⟩
    | enable =>
      cases hr
      refine .inr ⟨rfl, .inl ?_⟩
      rw [enable_val] at hs
      split at hs
      · simp [running] at hs
      · exact hs
    | wait => exact .inr ⟨rfl, .inl (waitExpired_manual_eq_some_iff.1 hr).1⟩

/-- **When the tone is left on.** After any moves of a new timer with a speaker, let the timer not count. Then the last
call on the speaker switched the tone on just when a `disable` cut off a countdown after such a call, and no call was
made since. -/
theorem tone_on_iff_disabled_while_on (name : String) (answers : List (Option String)) (later : Option String)
    (ms : List Move) (r : Noted Countdown) (h : performAll ms (sounding name (.recorder answers later)) = some r)
    (hs : r.val.running = false) :
    (Note.tones r.notes).getLast? = some true ↔
      ∃ before after cut, ms = before ++ .own .disable :: after ∧
        performAll before (sounding name (.recorder answers later)) = some cut ∧ cut.val.running = true ∧
        (Note.tones cut.notes).getLast? = some true ∧ Note.tones r.notes = Note.tones cut.notes := by
  constructor
  · intro hon
    -- From the end: the last move leaves the tone off, or it is the `disable` that is looked for, or it makes no call
    -- and what came before it decides.
    induction ms using List.reverseRecOn generalizing r with
    | nil => cases h; cases hon
    | append_singleton ms m ih =>
      obtain ⟨first, last, hf, hl, rfl⟩ := performAll_concat_eq_some_iff.1 h
      have hcons : first.val.Consistent := (consistent_new name (some _)).performAll hf
      have hcalls := (perform_tones (performAll_recorded (recorded_sounding name answers later) hf) hl).2
      simp only [Note.tones_append, hcalls] at hon ⊢
      rcases stopped_cases hcons hl hs with hoff | ⟨hnone, hquiet⟩
      · rw [List.getLast?_append, hoff] at hon
        cases hon
      · rw [hnone, List.append_nil] at hon ⊢
        cases hrun : first.val.running with
        | true =>
          rcases hquiet with hq | rfl
          · rw [hrun] at hq
            cases hq
          · exact ⟨ms, [], first, rfl, hf, hrun, hon, rfl⟩
        | false =>
          obtain ⟨before, after, cut, rfl, hcut, hcr, hct, heq⟩ := ih first hf hrun hon
          exact ⟨before, after ++ [m], cut, by simp, hcut, hcr, hct, heq⟩
  · rintro ⟨before, after, cut, -, -, -, hct, heq⟩
    rw [heq]
    exact hct

/-- **A `disable` leaves the tone on.** The timer is set to five, counts one tick, and is disabled: it does not count
any more, and the only call on the speaker switched the tone on. -/
theorem disable_leaves_tone_on :
    ∃ r, performAll [.own (.set 5), .tick, .own .disable] (sounding "sound" .recording) = some r ∧
      r.val.running = false ∧ Note.tones r.notes = [true] :=
  ⟨_, rfl, rfl, rfl⟩

/-- cut off, and then set to zero while disabled: the tone stays on -/
theorem zero_while_disabled_keeps_tone_on :
    ∃ r, performAll [.own (.set 5), .tick, .own .disable, .own (.set 0), .tick] (sounding "sound" .recording) = some r ∧
      r.val.running = false ∧ r.val.value = 0 ∧ (Note.tones r.notes).getLast? = some true := by
  refine ⟨_, rfl, rfl, rfl, ?_⟩
  refine (tone_on_iff_disabled_while_on "sound" [] none
    [.own (.set 5), .tick, .own .disable, .own (.set 0), .tick] _ rfl rfl).2 ?_
  exact ⟨[.own (.set 5), .tick], [.own (.set 0), .tick], _, rfl, rfl, rfl, rfl, rfl⟩

end Countdown

end Chip8
