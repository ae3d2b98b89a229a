/-
Restarts. A new value replaces a countdown that may have ticks in its queue, and those must not count against the new
value: the old worker may take them up to the moment it is joined, and nobody may after that. All results are about any
interleaving of any number of timers on one clock.

Results:
- `noStale_of_commit`, `noStale_of_set`: once the old worker is joined, no tick from before is left to be taken;
- `Counted.step`: the counter and the ticks that the new worker has taken add up to the value that was set;
- `run_concerning`: what happens to other timers makes no difference;
- `restart_keeps_ticks_apart`: all of this for every moment of every run.
-/
import Chip8.Proofs.Timer.Threads

namespace Chip8

namespace TimerThreads

/-! ## Ticks from before a restart -/

/-- every tick that a worker can still take, now or once it is started, has at least this number -/
structure NoStale (n : Nat) (p : TimerThreads) : Prop where
  pending : ∀ (k : Nat) (w : Worker), p.workers[k]? = some w → w.alive = true → ∀ i ∈ w.pending, n ≤ i
  ticker : p.stage = .spawn → ∀ i ∈ p.ticker.getD [], n ≤ i

namespace NoStale

variable {n : Nat} {p : TimerThreads}

theorem le_of_nextTick (h : NoStale n p) {k i : Nat} (hi : p.nextTick k = some i) : n ≤ i := by
  obtain ⟨w, hw, ha, hp⟩ := nextTick_eq_some_iff.1 hi
  exact h.pending k w hw ha i (List.mem_of_mem_head? hp)

theorem of_not_alive (h : ∀ k, p.alive k = false) (hs : p.stage ≠ .spawn) : NoStale n p := by
  refine ⟨fun k w hw ha => ?_, fun e => absurd e hs⟩
  have hk := alive_eq_true_iff.2 ⟨w, hw, ha⟩
  simp [h k] at hk

/-- ticks are only lost when workers take them or end -/
theorem of_workers (h : NoStale n p) (p' : TimerThreads) (hw : ∀ (j : Nat) (w' : Worker), p'.workers[j]? = some w' →
      w'.alive = true → ∃ w, p.workers[j]? = some w ∧ w.alive = true ∧ w'.pending ⊆ w.pending)
    (ht : p'.stage = .spawn → ∀ i ∈ p'.ticker.getD [], n ≤ i) : NoStale n p' := by
  refine ⟨fun k w' hw' ha' i hi => ?_, ht⟩
  obtain ⟨w, hw, ha, hsub⟩ := hw k w' hw' ha'
  exact h.pending k w hw ha i (hsub hi)

theorem deliver (h : NoStale n p) {i : Nat} (hi : n ≤ i) : NoStale n (p.deliver i) := by
  refine ⟨fun k w' hw' ha' j hj => ?_, fun hs j hj => ?_⟩
  · simp only [TimerThreads.deliver, List.getElem?_map, Option.map_eq_some_iff] at hw'
    obtain ⟨w, hw, rfl⟩ := hw'
    unfold Worker.receive at ha' hj
    split at hj
    case isTrue ha =>
      rcases List.mem_append.1 hj with hj | hj
      · exact h.pending k w hw ha j hj
      · rwa [List.mem_singleton.1 hj]
    case isFalse ha =>
      rw [if_neg ha] at ha'
      exact absurd ha' ha
  · cases e : p.ticker with
    | none => simp [TimerThreads.deliver, e] at hj
    | some ticks =>
      simp only [TimerThreads.deliver, e, Option.map_some, Option.getD_some, List.mem_append,
        List.mem_singleton] at hj
      rcases hj with hj | rfl
      · exact h.ticker hs j (by simpa [e] using hj)
      · exact hi

theorem take (h : NoStale n p) (k : Nat) : NoStale n (p.take k) := by
  obtain ⟨hs, -, -, ht, -⟩ := p.take_frame k
  refine h.of_workers _ (fun j w hw ha => ?_) (fun e => ht ▸ h.ticker (hs ▸ e))
  obtain ⟨w', hw', ha', -, hsub⟩ := getElem?_take hw
  exact ⟨w', hw', ha' ha, hsub⟩

theorem leave (h : NoStale n p) (k : Nat) : NoStale n (p.leave k) := by
  refine h.of_workers _ (fun j w hw ha => ?_) h.ticker
  obtain ⟨w', hw', ha', -, hsub⟩ := getElem?_leave hw
  exact ⟨w', hw', ha' ha, hsub⟩

theorem act (h : NoStale n p) : NoStale n p.act := by
  have hsame : ∀ (j : Nat) (w' : Worker), p.workers[j]? = some w' → w'.alive = true →
      ∃ w, p.workers[j]? = some w ∧ w.alive = true ∧ w'.pending ⊆ w.pending :=
    fun j w' hw' ha' => ⟨w', hw', ha', List.Subset.refl _⟩
  unfold TimerThreads.act
  split
  case h_1 => exact h
  case h_2 next hs =>
    refine h.of_workers _ (fun j w' hw' ha' => ?_) (fun e => by cases e)
    obtain ⟨w, hw, rfl⟩ := getElem?_hungUp hw'
    refine ⟨w, hw, ?_⟩
    split at ha'
    case isTrue hj => exact ⟨ha', by rw [if_pos hj]; exact List.Subset.refl _⟩
    case isFalse hj => exact ⟨ha', by rw [if_neg hj]; exact List.Subset.refl _⟩
  case h_3 next hs =>
    split
    · exact h
    · exact h.of_workers _ hsame (fun e => by cases e)
  case h_4 value hs =>
    refine h.of_workers _ hsame (fun e => ?_)
    simp only at e
    grind
  case h_5 hs => exact h.of_workers _ hsame (fun e => by cases e)
  case h_6 hs => exact h.of_workers _ hsame (fun e => by cases e)
  case h_7 hs => exact h.of_workers _ hsame (fun _ i hi => by cases hi)
  case h_8 hs =>
    refine ⟨fun j w hw ha i hi => ?_, fun e => by cases e⟩
    rcases getElem?_spawned hw with hw | ⟨-, rfl⟩
    · exact h.pending j w hw ha i hi
    · exact h.ticker hs i hi
  case h_9 hs =>
    refine h.of_workers _ hsame (fun e => ?_)
    simp only at e
    grind
  case h_10 hs =>
    split
    · exact h
    · exact h.of_workers _ hsame (fun e => by cases e)

theorem step (h : NoStale n p) (s : Step) : NoStale n (p.step s) := by
  cases s with
  | act => exact h.act
  | take k => exact h.take k
  | leave k => exact h.leave k
  | call op =>
    simp only [TimerThreads.step]
    split
    case isTrue => exact ⟨h.pending, fun e => by cases op <;> cases e⟩
    case isFalse => exact h

end NoStale

/-- the old task is not joined yet, or no old tick is left -/
def Settling (n : Nat) (p : TimerThreads) : Prop :=
  (∃ next, p.stage = .hangUp next ∨ p.stage = .join next) ∨ NoStale n p

namespace Settling

variable {n : Nat} {p : TimerThreads}

theorem noStale (h : Settling n p) (hs : p.stage = .idle) : NoStale n p := by
  rcases h with ⟨next, he | he⟩ | h
  · simp [hs] at he
  · simp [hs] at he
  · exact h

theorem deliver (h : Settling n p) {i : Nat} (hi : n ≤ i) : Settling n (p.deliver i) :=
  h.imp id fun h => h.deliver hi

/-- when the old task is joined, nobody is left who could take an old tick -/
theorem act (h : Settling n p) (ho : p.Orderly) : Settling n p.act := by
  rcases h with ⟨next, hs | hs⟩ | h
  · exact .inl ⟨next, .inr (by simp [TimerThreads.act, hs])⟩
  · simp only [TimerThreads.act, hs]
    split
    case isTrue => exact .inl ⟨next, .inr hs⟩
    case isFalse hh =>
      have hj : { p with handle := none, stage := .commit next }.Orderly :=
        ho.joined (Bool.eq_false_iff.2 hh) _ rfl
      exact .inr (.of_not_alive (hj.not_alive rfl) (by simp))
  · exact .inr h.act

theorem step (h : Settling n p) (ho : p.Orderly) (s : Step) : Settling n (p.step s) := by
  cases s with
  | act => exact h.act ho
  | take k => exact h.imp (by simp [TimerThreads.step]) fun h => h.take k
  | leave k => exact h.imp id fun h => h.leave k
  | call op =>
    by_cases hs : p.stage = .idle
    · exact .inr ((h.noStale hs).step _)
    · simpa [TimerThreads.step, hs] using h

end Settling

/-! ## Counting from a value that was set -/

/-- a `set` that has not stored its value yet, with `k` workers started before -/
structure Storing (v : UInt8) (k : Nat) (p : TimerThreads) : Prop where
  stage : p.stage = .hangUp (.store v) ∨ p.stage = .join (.store v) ∨ p.stage = .commit (.store v)
  length : p.workers.length = k

/-- the value was stored, and worker `k` is the one that counts from it -/
structure Counted (v : UInt8) (k : Nat) (p : TimerThreads) : Prop where
  others : ∀ j, p.alive j = true → j = k
  sum : p.value.toNat + p.takenBy k = v.toNat
  ready : match p.stage with
    | .register | .spawn => p.workers.length = k
    | .silence | .idle | .wait => p.disabled = false → (p.alive k = true ↔ 0 < p.value)
    | _ => False

theorem takenBy_length (p : TimerThreads) : p.takenBy p.workers.length = 0 := by
  simp [takenBy]

namespace Counted

variable {v : UInt8} {k : Nat} {p : TimerThreads}

/-- where the owner can be while the count goes on -/
theorem stage (h : Counted v k p) : p.stage = .register ∨ p.stage = .spawn ∨ p.stage = .silence ∨ p.stage = .idle ∨
    p.stage = .wait := by
  have hr := h.ready
  cases e : p.stage <;> simp [e] at hr ⊢

/-- the count begins when the value is stored: nobody counts, and no tick is taken yet -/
theorem of_stored (ho : p.Orderly) (hs : p.stage = .commit (.store v)) : Counted v p.workers.length p.act := by
  have hnobody : ∀ j, p.alive j = false := ho.not_alive_of_commit hs
  have hact : p.act = { p with
      value := v
      stage := if p.disabled then .idle else if v = 0 then .silence else .register } := by
    simp [TimerThreads.act, hs]
  rw [hact]
  refine ⟨?_, ?_, ?_⟩
  · intro j hj
    have hp : p.alive j = true := hj
    simp [hnobody j] at hp
  · exact congrArg (v.toNat + ·) p.takenBy_length
  · cases hd : p.disabled with
    | true => simp
    | false =>
      by_cases h0 : v = 0
      · simp [h0, alive]
      · simp [h0]

theorem take (h : Counted v k p) (ho : p.Orderly) (j : Nat) : Counted v k (p.take j) := by
  cases hi : p.nextTick j with
  | none => simpa [TimerThreads.take, hi] using h
  | some i =>
    have hj : p.alive j = true := alive_of_nextTick hi
    obtain rfl : j = k := h.others j hj
    have hv : 0 < p.value := (ho.counting j hj).1
    obtain ⟨hval, halive, htaken⟩ := take_of_nextTick hi hv
    refine ⟨?_, ?_, ?_⟩
    · intro l hl
      rw [halive] at hl
      split at hl
      case isTrue e => exact e.symm
      case isFalse => exact h.others l hl
    · have hone : 1 ≤ p.value.toNat := hv
      have hless : (p.value - 1).toNat = p.value.toNat - 1 := UInt8.toNat_sub_of_le _ _ (by grind)
      calc (p.take j).value.toNat + (p.take j).takenBy j
          = (p.value.toNat - 1) + (p.takenBy j + 1) := by rw [hval, htaken, if_pos rfl, hless]
        _ = p.value.toNat + p.takenBy j := by omega
        _ = v.toNat := h.sum
    · have hr := h.ready
      have hgoes : (p.take j).alive j = true ↔ 0 < (p.take j).value := by
        rw [halive, if_pos rfl, hval, decide_eq_true_iff]
        grind
      rw [(p.take_frame j).1, (p.take_frame j).2.1, (p.take_frame j).2.2.2.2]
      rcases h.stage with hs | hs | hs | hs | hs
      · simpa only [hs] using hr
      · simpa only [hs] using hr
      · simpa only [hs] using fun _ => hgoes
      · simpa only [hs] using fun _ => hgoes
      · simpa only [hs] using fun _ => hgoes

theorem deliver (h : Counted v k p) (i : Nat) : Counted v k (p.deliver i) := by
  have hs : (p.deliver i).stage = p.stage := rfl
  have hd : (p.deliver i).disabled = p.disabled := rfl
  have hv : (p.deliver i).value = p.value := rfl
  have hl : (p.deliver i).workers.length = p.workers.length := List.length_map ..
  refine ⟨fun j hj => h.others j ?_, ?_, ?_⟩
  · rwa [(p.deliver_frame i j).1] at hj
  · rw [hv, (p.deliver_frame i k).2]
    exact h.sum
  · rw [hs, hd, hv, hl, (p.deliver_frame i k).1]
    exact h.ready

/-- the worker that is started counts from the whole value -/
theorem spawned (h : Counted v k p) (ho : p.Orderly) (hs : p.stage = .spawn) : Counted v k p.spawned := by
  have hnew : p.workers.length = k := by
    have hr := h.ready
    simpa only [hs] using hr
  obtain ⟨hn, hv, -⟩ : p.handle = none ∧ 0 < p.value ∧ p.disabled = false := by
    have hf := ho.fits
    simpa only [Fits, hs] using hf
  have halive : p.spawned.alive k = true := by
    simp [TimerThreads.alive, TimerThreads.spawned, ← hnew, Worker.start]
  refine ⟨fun j hj => ?_, ?_, fun _ => ⟨fun _ => hv, fun _ => halive⟩⟩
  · obtain ⟨w, hw, ha⟩ := alive_eq_true_iff.1 hj
    rcases getElem?_spawned hw with hw | ⟨e, -⟩
    · exact h.others j (alive_eq_true_iff.2 ⟨w, hw, ha⟩)
    · exact e.trans hnew
  · have hsum := h.sum
    have htaken : p.spawned.takenBy k = 0 := by
      simp [takenBy, TimerThreads.spawned, ← hnew, Worker.start]
    rw [← hnew, p.takenBy_length] at hsum
    rw [htaken]
    exact hsum

theorem act (h : Counted v k p) (ho : p.Orderly) : Counted v k p.act := by
  have hr := h.ready
  have hsum := h.sum
  unfold TimerThreads.act
  rcases h.stage with hs | hs | hs | hs | hs <;> simp only [hs] at hr ⊢
  · exact ⟨h.others, hsum, hr⟩
  · exact h.spawned ho hs
  · exact ⟨h.others, hsum, hr⟩
  · exact h
  · split
    · exact h
    · exact ⟨h.others, hsum, hr⟩

theorem step (h : Counted v k p) (ho : p.Orderly) (s : Step) (hs : ∀ op, s = .call op → op = .get ∨ op = .wait) :
    Counted v k (p.step s) := by
  cases s with
  | act => exact h.act ho
  | take j => exact h.take ho j
  | leave j =>
    have hstays : p.leave j = p := ho.leave_eq (fun next e => by have := h.stage; simp [e] at this) j
    rwa [TimerThreads.step, hstays]
  | call op =>
    have hr := h.ready
    simp only [TimerThreads.step]
    split
    case isFalse => exact h
    case isTrue hi =>
      rw [hi] at hr
      rcases hs op rfl with rfl | rfl
      · exact ⟨h.others, h.sum, hr⟩
      · exact ⟨h.others, h.sum, hr⟩

end Counted

/-- the owner is in no operation that changes anything -/
def Resting (p : TimerThreads) : Prop :=
  p.stage = .idle ∨ p.stage = .wait

theorem Resting.step {p : TimerThreads} (h : p.Resting) (s : Step)
    (hs : ∀ op, s = .call op → op = .get ∨ op = .wait) : (p.step s).Resting := by
  cases s with
  | take k => simpa [Resting, TimerThreads.step] using h
  | leave k => exact h
  | act =>
    simp only [TimerThreads.step, TimerThreads.act]
    rcases h with e | e <;> simp only [e]
    · exact .inl e
    · split
      · exact .inr e
      · exact .inl rfl
  | call op =>
    simp only [TimerThreads.step]
    split
    case isFalse => exact h
    case isTrue =>
      rcases hs op rfl with rfl | rfl
      · exact .inl rfl
      · exact .inr rfl

/-- from its call on, a `set` is on its way to the store, or its value is counted down -/
theorem storing_or_counted_step {v : UInt8} {k : Nat} {p : TimerThreads} (h : Storing v k p ∨ Counted v k p)
    (ho : p.Orderly) (s : Step) (hs : ∀ op, s = .call op → op = .get ∨ op = .wait) :
    Storing v k (p.step s) ∨ Counted v k (p.step s) := by
  rcases h with ⟨hst, rfl⟩ | h
  · cases s with
    | act =>
      rcases hst with e | e | e
      · exact .inl ⟨.inr (.inl (by simp [step, act, e])), by simp [step, act, e]⟩
      · simp only [step, act, e]
        split
        · exact .inl ⟨.inr (.inl e), rfl⟩
        · exact .inl ⟨.inr (.inr rfl), rfl⟩
      · exact .inr (.of_stored ho e)
    | take j => exact .inl ⟨by simpa [step] using hst, by simp [step]⟩
    | leave j => exact .inl ⟨hst, by simp [step, leave]⟩
    | call op =>
      have hbusy : p.stage ≠ .idle := by rcases hst with e | e | e <;> simp [e]
      exact .inl ⟨by simpa [step, hbusy] using hst, by simp [step, hbusy]⟩
  · exact .inr (h.step ho s hs)

end TimerThreads

namespace SharedClock

open TimerThreads

variable {ι : Type} [DecidableEq ι]

/-! ## Other timers -/

/-- does an event have to do with timer `x`? -/
def Event.concerns (x : ι) : Event ι → Bool
  | .tick => true
  | .thread y _ => y = x

/-- what other timers' threads do makes no difference to a timer -/
theorem run_concerning (x : ι) (es : List (Event ι)) (c : SharedClock ι) :
    (run (es.filter (Event.concerns x)) c).timers x = (run es c).timers x := by
  suffices h : ∀ d : SharedClock ι, d.issued = c.issued → d.timers x = c.timers x →
      (run (es.filter (Event.concerns x)) d).timers x = (run es c).timers x from h c rfl rfl
  induction es generalizing c with
  | nil => exact fun d _ ht => ht
  | cons e es ih =>
    intro d hi ht
    cases e with
    | tick => exact ih (c.step .tick) (d.step .tick) (by simp [step, hi]) (by simp [step, hi, ht])
    | thread y s =>
      by_cases hy : y = x
      · subst hy
        rw [List.filter_cons_of_pos (by simp [Event.concerns])]
        exact ih (c.step (.thread y s)) (d.step (.thread y s)) hi (by simp [step, ht])
      · rw [List.filter_cons_of_neg (by simp [Event.concerns, hy])]
        exact ih (c.step (.thread y s)) d hi (by simpa [step, Ne.symm hy] using ht)

/-! ## Restarts -/

/-- the owner of timer `x` calls `set`, and then other things happen -/
def afterSet (c : SharedClock ι) (x : ι) (v : UInt8) (es : List (Event ι)) : SharedClock ι :=
  run es (c.step (.thread x (.call (.set v))))

theorem timers_call_set (c : SharedClock ι) (x : ι) (v : UInt8) (hi : (c.timers x).stage = .idle) :
    (c.step (.thread x (.call (.set v)))).timers x = { c.timers x with stage := .hangUp (.store v) } := by
  simp [step, TimerThreads.step, hi, plan]

/-- once no tick from before a moment is left, none comes back -/
theorem noStale_run {n : Nat} {c : SharedClock ι} {x : ι} (hn : n ≤ c.issued) (h : NoStale n (c.timers x))
    (es : List (Event ι)) : NoStale n ((run es c).timers x) := by
  have hkept : n ≤ (run es c).issued ∧ NoStale n ((run es c).timers x) := by
    refine run_keeps es (P := fun i p => n ≤ i ∧ NoStale n p) ?_ ?_ ⟨hn, h⟩
    · rintro i p ⟨hn, h⟩
      exact ⟨Nat.le_succ_of_le hn, h.deliver hn⟩
    · rintro i p s _ ⟨hn, h⟩
      exact ⟨hn, h.step s⟩
  exact hkept.2

/-- a value is stored when the old worker is gone, and its ticks with it -/
theorem noStale_of_commit {c : SharedClock ι} {x : ι} (ho : (c.timers x).Orderly) {next : Purpose}
    (hs : (c.timers x).stage = .commit next) (es : List (Event ι)) : NoStale c.issued ((run es c).timers x) := by
  refine noStale_run (Nat.le_refl _) (.of_not_alive (ho.not_alive_of_commit hs) ?_) es
  simp [hs]

/-- once a `set` is over, no tick from before its call can be taken any more -/
theorem noStale_of_set {c : SharedClock ι} {x : ι} (ho : (c.timers x).Orderly) (hi : (c.timers x).stage = .idle)
    (v : UInt8) (during after : List (Event ι)) (hr : ((c.afterSet x v during).timers x).stage = .idle) :
    NoStale c.issued ((run after (c.afterSet x v during)).timers x) := by
  -- until the old worker is joined it may hold old ticks; afterwards nobody does
  have hduring : c.issued ≤ (c.afterSet x v during).issued ∧ ((c.afterSet x v during).timers x).Orderly ∧
      Settling c.issued ((c.afterSet x v during).timers x) := by
    refine run_keeps during (P := fun i p => c.issued ≤ i ∧ p.Orderly ∧ Settling c.issued p) ?_ ?_ ?_
    · rintro i p ⟨hn, ho, hs⟩
      exact ⟨Nat.le_succ_of_le hn, ho.deliver i, hs.deliver hn⟩
    · rintro i p s _ ⟨hn, ho, hs⟩
      exact ⟨hn, ho.step s, hs.step ho s⟩
    · have hcall := ho.step (.call (.set v))
      refine ⟨Nat.le_refl _, by simpa [step] using hcall, .inl ⟨.store v, .inl ?_⟩⟩
      rw [c.timers_call_set x v hi]
  obtain ⟨hn, -, hs⟩ := hduring
  exact noStale_run hn (hs.noStale hr) after

/-- once a `set` is over, its value is what is left plus what its worker took -/
theorem counted_of_set {c : SharedClock ι} {x : ι} (ho : (c.timers x).Orderly) (hi : (c.timers x).stage = .idle)
    (v : UInt8) (during after : List (Event ι)) (hr : ((c.afterSet x v during).timers x).stage = .idle)
    (hcalls : ∀ op, .thread x (.call op) ∈ during ++ after → op = .get ∨ op = .wait) :
    Counted v (c.timers x).workers.length ((run after (c.afterSet x v during)).timers x) ∧
      ((run after (c.afterSet x v during)).timers x).Resting := by
  have hduring : ((c.afterSet x v during).timers x).Orderly ∧
      (Storing v (c.timers x).workers.length ((c.afterSet x v during).timers x) ∨
        Counted v (c.timers x).workers.length ((c.afterSet x v during).timers x)) := by
    refine run_keeps during
      (P := fun _ p => p.Orderly ∧ (Storing v (c.timers x).workers.length p ∨ Counted v (c.timers x).workers.length p))
      ?_ ?_ ?_
    · rintro i p ⟨ho, h⟩
      exact ⟨ho.deliver i, h.imp (fun h => ⟨h.stage, by simp [deliver, h.length]⟩) fun h => h.deliver i⟩
    · rintro i p s hs ⟨ho, h⟩
      refine ⟨ho.step s, storing_or_counted_step h ho s fun op e => hcalls op ?_⟩
      exact List.mem_append_left _ (e ▸ hs)
    · have hcall := ho.step (.call (.set v))
      refine ⟨by simpa [step] using hcall, .inl ?_⟩
      rw [c.timers_call_set x v hi]
      exact ⟨.inl rfl, rfl⟩
  obtain ⟨hod, hstoring | hcounted⟩ := hduring
  -- the `set` is over, so the value is stored
  · rcases hstoring.stage with e | e | e <;> simp [e] at hr
  · have hafter := run_keeps after
      (P := fun _ p => p.Orderly ∧ Counted v (c.timers x).workers.length p ∧ p.Resting) (x := x)
      (c := c.afterSet x v during) ?_ ?_ ⟨hod, hcounted, .inl hr⟩
    · exact hafter.2
    · rintro i p ⟨ho, h, hrest⟩
      exact ⟨ho.deliver i, h.deliver i, hrest⟩
    · rintro i p s hs ⟨ho, h, hrest⟩
      have hcall : ∀ op, s = .call op → op = .get ∨ op = .wait := fun op e =>
        hcalls op (List.mem_append_right _ (e ▸ hs))
      exact ⟨ho.step s, h.step ho s hcall, hrest.step s hcall⟩

/-- the value is what was set less the ticks that this worker has taken; an enabled timer counts while any is left -/
structure CountsDown (v : UInt8) (worker : Nat) (p : TimerThreads) : Prop where
  taken_le : p.takenBy worker ≤ v.toNat
  value_eq : p.value.toNat = v.toNat - p.takenBy worker
  alive_iff : p.disabled = false → (p.alive worker = true ↔ 0 < p.value)

/-- **A restart keeps ticks apart.** At every moment of every run, for each timer:
- at most one of its workers counts;
- its value is changed by a tick that this worker takes, or by the store of a `set`, and then no worker counts;
- when the value of a `set` is about to be stored, no tick that was issued so far can be taken any more;
- so, once the `set` is over, a tick that can be taken was not issued before the call;
- from then on, while no other operation than `get` and `wait` is called, the value is what was set less the ticks that
  the worker started by this `set` has taken;
- nothing that is done to other timers makes a difference. -/
theorem restart_keeps_ticks_apart {c : SharedClock ι} (hc : c.Reachable) (x : ι) :
    (∀ j k, (c.timers x).alive j = true → (c.timers x).alive k = true → j = k) ∧
    (∀ e, ((c.step e).timers x).value ≠ (c.timers x).value →
      (∃ k i, e = .thread x (.take k) ∧ (c.timers x).nextTick k = some i) ∨
      (∃ v, e = .thread x .act ∧ (c.timers x).stage = .commit (.store v) ∧ ∀ k, (c.timers x).alive k = false)) ∧
    (∀ v es, (c.timers x).stage = .commit (.store v) →
      ∀ k i, ((run es c).timers x).nextTick k = some i → c.issued ≤ i) ∧
    (∀ v during after, (c.timers x).stage = .idle → ((c.afterSet x v during).timers x).stage = .idle →
      (∀ k i, ((run after (c.afterSet x v during)).timers x).nextTick k = some i → c.issued ≤ i) ∧
      ((∀ op, .thread x (.call op) ∈ during ++ after → op = .get ∨ op = .wait) →
        CountsDown v (c.timers x).workers.length ((run after (c.afterSet x v during)).timers x))) ∧
    (∀ es, (run (es.filter (Event.concerns x)) c).timers x = (run es c).timers x) := by
  have ho := hc.orderly x
  refine ⟨fun j k => ho.unique, fun e he => ?_, fun v es hs k i hk => ?_,
    fun v during after hi hr => ⟨fun k i hk => ?_, ?_⟩, fun es => run_concerning x es _⟩
  · rcases value_event_ne he with ⟨k, i, rfl, hk⟩ | ⟨v, rfl, hs⟩
    · exact .inl ⟨k, i, rfl, hk⟩
    · exact .inr ⟨v, rfl, hs, ho.not_alive_of_commit hs⟩
  · exact (noStale_of_commit ho hs es).le_of_nextTick hk
  · exact (noStale_of_set ho hi v during after hr).le_of_nextTick hk
  · intro hcalls
    obtain ⟨hcounted, hrest⟩ := counted_of_set ho hi v during after hr hcalls
    have hsum := hcounted.sum
    have hready := hcounted.ready
    refine ⟨by omega, by omega, ?_⟩
    rcases hrest with e | e
    · simpa only [e] using hready
    · simpa only [e] using hready

/-- the first timer is set to five, and a tick arrives -/
def counting : SharedClock Bool :=
  run [.thread true (.call (.set 5)), .thread true .act, .thread true .act, .thread true .act, .thread true .act,
    .thread true .act, .tick] (new (fun _ => "timer") fun _ => none)

/-- The first timer is set to three. Its old worker takes the tick that it has, after the owner hung up on it; another
tick arrives that it leaves in its queue, and one when it is gone. The other timer is set meanwhile. -/
def restarted : SharedClock Bool :=
  counting.afterSet true 3 [.thread true .act, .tick, .thread false (.call (.set 9)), .thread true (.take 0),
    .thread true .act, .thread true (.leave 0), .thread true .act, .tick, .thread true .act, .thread false .act,
    .thread true .act, .thread true .act]

/-- None of that counts against the three. -/
theorem restart_with_ticks_pending :
    counting.issued = 1 ∧ restarted.issued = 3 ∧ (restarted.timers true).takenBy 0 = 1 ∧
      ((run [.tick, .thread true (.take 1), .tick] restarted).timers true).nextTick 1 = some 4 ∧ counting.issued ≤ 4 ∧
      CountsDown 3 1 ((run [.tick, .thread true (.take 1), .tick] restarted).timers true) ∧
      ((run [.tick, .thread true (.take 1), .tick] restarted).timers true).value = 2 := by
  have hc : counting.Reachable := ⟨_, _, _, rfl⟩
  obtain ⟨-, -, -, hset, -⟩ := restart_keeps_ticks_apart hc true
  obtain ⟨hfresh, hcount⟩ := hset 3 _ [.tick, .thread true (.take 1), .tick] (by decide +kernel)
    (show (restarted.timers true).stage = .idle by decide +kernel)
  have hnext : ((run [.tick, .thread true (.take 1), .tick] restarted).timers true).nextTick 1 = some 4 := by
    decide +kernel
  refine ⟨rfl, rfl, by decide +kernel, hnext, hfresh 1 4 hnext, hcount ?_, by decide +kernel⟩
  intro op hop
  simp at hop

end SharedClock

end Chip8
