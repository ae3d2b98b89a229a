/-
The threads behind a timer. `Countdown` takes an operation of the owner, or a tick, as one step. Here the steps that the
threads take are apart: the owner goes through an operation in stages, a worker that counts may at any moment take the
next tick of its own ticker or notice that it was hung up on, and ticks arrive at any moment. Any order of these is a
run, for any number of timers on one clock. A step that is not possible when its turn comes changes nothing; so a
thread that waits goes on waiting.

Giving up a task is two stages: the owner hangs up, then it waits for the thread to end. In between the worker may still
take ticks, since it chooses freely between a tick and the hang-up.

Results:
- `Orderly.step`, `SharedClock.Reachable.orderly`: at every moment of every run, a worker that counts is the one the
  owner holds, the value is above zero and the timer is enabled;
- `Orderly.canFinish`: whatever operation the owner is in, except a wait, can be brought to its end;
- `value_step_ne`: a value is changed by a tick that a worker takes and by the store of a `set`, and by nothing else;
- `SharedClock.run_keeps`: what each step keeps, a run keeps.
-/
import Chip8.Proofs.Timer.History

namespace Chip8

structure Worker where
  /-- ticks that its ticker got and it has not taken, oldest first; ticks have numbers -/
  pending : List Nat
  /-- has the owner hung up on it? -/
  cancelled : Bool
  alive : Bool
  /-- ticks that it has taken, oldest first -/
  taken : List Nat
  deriving DecidableEq, Repr

namespace Worker

def start (pending : List Nat) : Worker :=
  ⟨pending, false, true, []⟩

def next (w : Worker) : Option Nat :=
  if w.alive then w.pending.head? else none

def took (i : Nat) (goesOn : Bool) (w : Worker) : Worker :=
  { w with pending := w.pending.tail, alive := goesOn, taken := w.taken ++ [i] }

def cancel (w : Worker) : Worker :=
  { w with cancelled := true }

/-- after looking whether the owner hung up on it -/
def leave (w : Worker) : Worker :=
  if w.cancelled then { w with alive := false } else w

/-- after a tick arrived; without a thread nobody listens -/
def receive (i : Nat) (w : Worker) : Worker :=
  if w.alive then { w with pending := w.pending ++ [i] } else w

end Worker

/-- what a task is given up for -/
inductive Purpose where
  | store (value : UInt8)
  | disable
  deriving DecidableEq, Repr

/-- how far the owner of a timer is in an operation on it: it is about to hang up on the task, waits for its thread to
end (`join`), is past that (`commit`), is about to switch the tone off, to ask the clock for a ticker or to start a
thread, or waits for the thread to end by itself -/
inductive Stage where
  | idle
  | hangUp (next : Purpose)
  | join (next : Purpose)
  | commit (next : Purpose)
  | silence
  | register
  | spawn
  | enable
  | wait
  deriving DecidableEq, Repr

/-- a timer with all threads that were ever started for it -/
structure TimerThreads where
  name : String
  speaker : Option Speaker
  value : UInt8
  disabled : Bool
  /-- the worker that the owner holds -/
  handle : Option Nat
  workers : List Worker
  /-- what a ticker got that no thread was started for yet -/
  ticker : Option (List Nat)
  stage : Stage
  deriving DecidableEq, Repr

namespace TimerThreads

open Countdown (Op)

def new (name : String) (speaker : Option Speaker) : TimerThreads :=
  ⟨name, speaker, 0, false, none, [], none, .idle⟩

/-! ## What can be seen of a timer -/

def counter (p : TimerThreads) (task : Option CountTask) : Countdown :=
  ⟨p.name, p.speaker, p.value, p.disabled, task⟩

def alive (p : TimerThreads) (k : Nat) : Bool :=
  p.workers[k]?.any (·.alive)

def nextTick (p : TimerThreads) (k : Nat) : Option Nat :=
  p.workers[k]?.bind (·.next)

def takenBy (p : TimerThreads) (k : Nat) : Nat :=
  p.workers[k]?.elim 0 (·.taken.length)

/-- the task as its owner sees it -/
def task (p : TimerThreads) : Option CountTask :=
  p.handle.map fun k => if p.alive k then .counting else .spent

/-- the timer as its owner sees it between two operations -/
def view (p : TimerThreads) : Countdown :=
  p.counter p.task

/-! ## The owner -/

/-- the first stage of an operation -/
def plan : Op → Stage
  | .set value => .hangUp (.store value)
  | .get => .idle
  | .disable => .hangUp .disable
  | .enable => .enable
  | .wait => .wait

def held (p : TimerThreads) : Bool :=
  p.handle.any p.alive

def hungUp (p : TimerThreads) : List Worker :=
  match p.handle with
  | some k => p.workers.modify k Worker.cancel
  | none => p.workers

def spawned (p : TimerThreads) : TimerThreads :=
  { p with
    handle := some p.workers.length
    workers := p.workers ++ [.start (p.ticker.getD [])]
    ticker := none
    stage := .idle }

def act (p : TimerThreads) : TimerThreads :=
  match p.stage with
  | .idle => p
  | .hangUp next => { p with workers := p.hungUp, stage := .join next }
  | .join next => if p.held then p else { p with handle := none, stage := .commit next }
  | .commit (.store value) =>
    { p with value := value, stage := if p.disabled then .idle else if value = 0 then .silence else .register }
  | .commit .disable => { p with disabled := true, stage := .idle }
  | .silence => { p with speaker := (p.counter none).toneOff.val.speaker, stage := .idle }
  | .register => { p with ticker := some [], stage := .spawn }
  | .spawn => p.spawned
  | .enable =>
    { p with disabled := false, stage := if p.value > 0 ∧ p.handle = none then .register else .idle }
  | .wait => if p.held then p else { p with handle := none, stage := .idle }

/-! ## Workers and ticks -/

def take (p : TimerThreads) (k : Nat) : TimerThreads :=
  match p.nextTick k with
  | none => p
  | some i =>
    let t := (p.counter (some .counting)).countOne.val
    { p with
      value := t.value
      speaker := t.speaker
      workers := p.workers.modify k (.took i t.running) }

/-- worker `k` looks whether it was hung up on -/
def leave (p : TimerThreads) (k : Nat) : TimerThreads :=
  { p with workers := p.workers.modify k .leave }

/-- a tick arrives at every ticker that somebody listens to -/
def deliver (p : TimerThreads) (i : Nat) : TimerThreads :=
  { p with workers := p.workers.map (.receive i), ticker := p.ticker.map (· ++ [i]) }

inductive Step where
  | call (op : Op)
  | act
  | take (k : Nat)
  | leave (k : Nat)
  deriving DecidableEq, Repr

def step (p : TimerThreads) : Step → TimerThreads
  | .call op => if p.stage = .idle then { p with stage := plan op } else p
  | .act => p.act
  | .take k => p.take k
  | .leave k => p.leave k

/-! ## Order among the threads -/

/-- what a stage relies on -/
def Fits (p : TimerThreads) : Prop :=
  match p.stage with
  | .commit _ | .silence => p.handle = none
  | .register | .spawn => p.handle = none ∧ 0 < p.value ∧ p.disabled = false
  | _ => True

/-- a worker that counts is the one that the owner holds, and it has something to count -/
structure Orderly (p : TimerThreads) : Prop where
  held : ∀ k, p.alive k = true → p.handle = some k
  last : ∀ k, p.handle = some k → p.workers.length = k + 1
  counting : ∀ k, p.alive k = true → 0 < p.value ∧ p.disabled = false
  cancelled : ∀ (k : Nat) (w : Worker), p.workers[k]? = some w → w.alive = true → w.cancelled = true →
    ∃ next, p.stage = .join next
  asked : ∀ (next : Purpose) (k : Nat) (w : Worker), p.stage = .join next → p.handle = some k →
    p.workers[k]? = some w → w.cancelled = true
  fits : p.Fits

theorem orderly_new (name : String) (speaker : Option Speaker) : (new name speaker).Orderly :=
  ⟨by simp [alive, new], by simp [new], by simp [alive, new], by simp [new],
    by simp [new], trivial⟩

theorem alive_eq_true_iff {p : TimerThreads} {k : Nat} :
    p.alive k = true ↔ ∃ w, p.workers[k]? = some w ∧ w.alive = true := by
  simp [alive, Option.any_eq_true]

theorem nextTick_eq_some_iff {p : TimerThreads} {k i : Nat} :
    p.nextTick k = some i ↔ ∃ w, p.workers[k]? = some w ∧ w.alive = true ∧ w.pending.head? = some i := by
  simp [nextTick, Worker.next, Option.bind_eq_some_iff]

/-- only a worker that counts can take a tick -/
theorem alive_of_nextTick {p : TimerThreads} {k i : Nat} (h : p.nextTick k = some i) : p.alive k = true := by
  obtain ⟨w, hw, ha, -⟩ := nextTick_eq_some_iff.1 h
  exact alive_eq_true_iff.2 ⟨w, hw, ha⟩

theorem held_eq_true_iff {p : TimerThreads} : p.held = true ↔ ∃ k, p.handle = some k ∧ p.alive k = true := by
  simp [TimerThreads.held, Option.any_eq_true]

/-- with a tick to take and a value left, the value goes down by one and the worker goes on while any is left -/
theorem countOne_counter (p : TimerThreads) (h : 0 < p.value) :
    (p.counter (some .counting)).countOne.val.value = p.value - 1 ∧
      (p.counter (some .counting)).countOne.val.running = decide (1 < p.value) := by
  have hrun : (p.counter (some .counting)).running = true := rfl
  refine ⟨?_, ?_⟩
  · rw [Countdown.countOne_value]
    exact if_neg (UInt8.pos_iff_ne_zero.1 h)
  · have := Countdown.running_tick hrun
    rw [Countdown.tick_val, if_pos hrun] at this
    rw [Bool.eq_iff_iff, this, decide_eq_true_iff]
    rfl

@[simp] theorem take_frame (p : TimerThreads) (k : Nat) :
    (p.take k).stage = p.stage ∧ (p.take k).disabled = p.disabled ∧ (p.take k).handle = p.handle ∧
      (p.take k).ticker = p.ticker ∧ (p.take k).workers.length = p.workers.length := by
  unfold take
  cases p.nextTick k <;> simp

/-- who takes a tick loses it from its queue, and may end -/
theorem getElem?_take {p : TimerThreads} {k j : Nat} {w : Worker} (h : (p.take k).workers[j]? = some w) :
    ∃ w', p.workers[j]? = some w' ∧ (w.alive = true → w'.alive = true) ∧ w.cancelled = w'.cancelled ∧
      w.pending ⊆ w'.pending := by
  cases hi : p.nextTick k with
  | none =>
    simp only [take, hi] at h
    exact ⟨w, h, id, rfl, List.Subset.refl _⟩
  | some i =>
    simp only [take, hi, List.getElem?_modify] at h
    obtain ⟨w', hw', rfl⟩ := Option.map_eq_some_iff.1 h
    refine ⟨w', hw', ?_⟩
    split
    case isTrue e =>
      obtain ⟨v, hv, ha, -⟩ := nextTick_eq_some_iff.1 hi
      rw [e, hw'] at hv
      cases hv
      exact ⟨fun _ => ha, rfl, fun _ => List.mem_of_mem_tail⟩
    case isFalse => exact ⟨id, rfl, List.Subset.refl _⟩

/-- who leaves keeps its queue -/
theorem getElem?_leave {p : TimerThreads} {k j : Nat} {w : Worker} (h : (p.leave k).workers[j]? = some w) :
    ∃ w', p.workers[j]? = some w' ∧ (w.alive = true → w'.alive = true) ∧ w.cancelled = w'.cancelled ∧
      w.pending ⊆ w'.pending := by
  simp only [leave, List.getElem?_modify] at h
  obtain ⟨w', hw', rfl⟩ := Option.map_eq_some_iff.1 h
  refine ⟨w', hw', ?_⟩
  unfold Worker.leave
  grind

/-- a worker that takes a tick counts it, and goes on while any value is left -/
theorem take_of_nextTick {p : TimerThreads} {k i : Nat} (hi : p.nextTick k = some i) (hv : 0 < p.value) :
    (p.take k).value = p.value - 1 ∧
      (∀ j, (p.take k).alive j = if k = j then decide (1 < p.value) else p.alive j) ∧
      ∀ j, (p.take k).takenBy j = p.takenBy j + if k = j then 1 else 0 := by
  obtain ⟨w, hw, -⟩ := nextTick_eq_some_iff.1 hi
  obtain ⟨hval, hrun⟩ := p.countOne_counter hv
  simp only [take, hi]
  refine ⟨hval, fun j => ?_, fun j => ?_⟩
  · simp only [alive, List.getElem?_modify]
    split
    case isTrue e => simp [← e, hw, Worker.took, hrun]
    case isFalse => simp
  · simp only [takenBy, List.getElem?_modify]
    split
    case isTrue e => simp [← e, hw, Worker.took]
    case isFalse => simp

/-- what arrives is neither taken nor the end of a worker -/
@[simp] theorem deliver_frame (p : TimerThreads) (i j : Nat) :
    (p.deliver i).alive j = p.alive j ∧ (p.deliver i).takenBy j = p.takenBy j := by
  simp only [deliver, alive, takenBy, List.getElem?_map]
  cases p.workers[j]? with
  | none => simp
  | some w =>
    simp only [Option.map_some, Option.any_some, Option.elim_some, Worker.receive]
    split <;> simp

theorem getElem?_hungUp {p : TimerThreads} {j : Nat} {w : Worker} (h : p.hungUp[j]? = some w) :
    ∃ w', p.workers[j]? = some w' ∧ w = if p.handle = some j then w'.cancel else w' := by
  unfold hungUp at h
  split at h
  case h_1 k hk =>
    rw [List.getElem?_modify] at h
    obtain ⟨w', hw', rfl⟩ := Option.map_eq_some_iff.1 h
    exact ⟨w', hw', by simp [hk]⟩
  case h_2 hn => exact ⟨w, h, by simp [hn]⟩

@[simp] theorem length_hungUp (p : TimerThreads) : p.hungUp.length = p.workers.length := by
  unfold hungUp
  split
  · exact List.length_modify ..
  · rfl

theorem getElem?_spawned {p : TimerThreads} {j : Nat} {w : Worker} (h : p.spawned.workers[j]? = some w) :
    p.workers[j]? = some w ∨ (j = p.workers.length ∧ w = .start (p.ticker.getD [])) := by
  simp only [spawned, List.getElem?_append] at h
  split at h
  case isTrue => exact .inl h
  case isFalse hj =>
    rw [List.getElem?_singleton] at h
    split at h
    case isTrue => exact .inr ⟨by omega, (Option.some.inj h).symm⟩
    case isFalse => cases h

namespace Orderly

variable {p : TimerThreads}

/-- a timer has at most one worker that counts -/
theorem unique (h : p.Orderly) {j k : Nat} (hj : p.alive j = true) (hk : p.alive k = true) : j = k :=
  Option.some.inj ((h.held j hj).symm.trans (h.held k hk))

theorem not_alive (h : p.Orderly) (hn : p.handle = none) (k : Nat) : p.alive k = false := by
  cases hk : p.alive k with
  | false => rfl
  | true => simp [h.held k hk] at hn

/-- when the value of a `set` is stored, no worker counts -/
theorem not_alive_of_commit (h : p.Orderly) {next : Purpose} (hs : p.stage = .commit next)
    (k : Nat) : p.alive k = false := by
  have hf := h.fits
  simp only [Fits, hs] at hf
  exact h.not_alive hf k

/-- a disabled timer has no worker that counts -/
theorem not_alive_of_disabled (h : p.Orderly) (hd : p.disabled = true) (k : Nat) : p.alive k = false := by
  cases hk : p.alive k with
  | false => rfl
  | true =>
    have he := (h.counting k hk).2
    simp [hd] at he

/-- while a worker is held, no stage that relies on its absence is reached -/
theorem fits_of_held (h : p.Orderly) {k : Nat} (hk : p.handle = some k) (p' : TimerThreads)
    (hs : p'.stage = p.stage) : p'.Fits := by
  have hf := h.fits
  unfold Fits at hf ⊢
  rw [hs]
  cases e : p.stage <;> simp [e, hk] at hf ⊢

theorem take (h : p.Orderly) (k : Nat) : (p.take k).Orderly := by
  cases hi : p.nextTick k with
  | none => simpa [TimerThreads.take, hi] using h
  | some i =>
    have hk : p.alive k = true := alive_of_nextTick hi
    obtain ⟨hv, hd⟩ := h.counting k hk
    obtain ⟨hval, halive, -⟩ := take_of_nextTick hi hv
    obtain ⟨hs, hdis, hhandle, -, hlen⟩ := p.take_frame k
    have hstill : ∀ j, (p.take k).alive j = true → p.alive j = true := by
      intro j hj
      obtain ⟨w, hw, ha⟩ := alive_eq_true_iff.1 hj
      obtain ⟨w', hw', ha', -⟩ := getElem?_take hw
      exact alive_eq_true_iff.2 ⟨w', hw', ha' ha⟩
    refine ⟨?_, ?_, ?_, ?_, ?_, h.fits_of_held (h.held k hk) _ hs⟩
    · intro j hj
      rw [hhandle]
      exact h.held j (hstill j hj)
    · intro j hj
      rw [hlen]
      exact h.last j (hhandle ▸ hj)
    · intro j hj
      -- who counts after the tick counted before it, and nobody but the taker did
      obtain rfl : k = j := h.unique hk (hstill j hj)
      rw [halive, if_pos rfl, decide_eq_true_iff] at hj
      rw [hval, hdis]
      exact ⟨by grind, hd⟩
    · intro j w hw ha hc
      obtain ⟨w', hw', ha', hc', -⟩ := getElem?_take hw
      rw [hs]
      exact h.cancelled j w' hw' (ha' ha) (hc' ▸ hc)
    · intro next j w hj hh hw
      obtain ⟨w', hw', -, hc', -⟩ := getElem?_take hw
      exact hc'.trans (h.asked next j w' (hs ▸ hj) (hhandle ▸ hh) hw')

/-- the order is kept when workers end, and when their ticks arrive -/
theorem of_workers (h : p.Orderly) (ws : List Worker) (ticker : Option (List Nat))
    (hl : ws.length = p.workers.length) (hw : ∀ (j : Nat) (w' : Worker), ws[j]? = some w' →
      ∃ w, p.workers[j]? = some w ∧ (w'.alive = true → w.alive = true) ∧ w'.cancelled = w.cancelled) :
    { p with workers := ws, ticker := ticker }.Orderly := by
  have halive : ∀ j, { p with workers := ws, ticker := ticker }.alive j = true → p.alive j = true := by
    intro j hj
    obtain ⟨w', hw', ha'⟩ := alive_eq_true_iff.1 hj
    obtain ⟨w, hw, ha, -⟩ := hw j w' hw'
    exact alive_eq_true_iff.2 ⟨w, hw, ha ha'⟩
  refine ⟨fun j hj => h.held j (halive j hj), ?_, fun j hj => h.counting j (halive j hj), ?_, ?_, h.fits⟩
  · intro j hj
    exact hl.trans (h.last j hj)
  · intro j w' hw' ha' hc'
    obtain ⟨w, hw, ha, hc⟩ := hw j w' hw'
    exact h.cancelled j w hw (ha ha') (hc ▸ hc')
  · intro next j w' hs hj hw'
    obtain ⟨w, hw, -, hc⟩ := hw j w' hw'
    exact hc.trans (h.asked next j w hs hj hw)

theorem leave (h : p.Orderly) (k : Nat) : (p.leave k).Orderly := by
  refine h.of_workers _ p.ticker (List.length_modify ..) ?_
  intro j w hw
  obtain ⟨w', hw', ha, hc, -⟩ := getElem?_leave hw
  exact ⟨w', hw', ha, hc⟩

/-- a worker leaves only while the owner waits for that -/
theorem leave_eq (h : p.Orderly) (hs : ∀ next, p.stage ≠ .join next) (k : Nat) : p.leave k = p := by
  have hw : p.workers.modify k .leave = p.workers := by
    refine List.ext_getElem? fun j => ?_
    rw [List.getElem?_modify]
    cases e : p.workers[j]? with
    | none => rfl
    | some w =>
      have hquiet : ¬ (w.alive = true ∧ w.cancelled = true) := by
        rintro ⟨ha, hc⟩
        obtain ⟨next, hj⟩ := h.cancelled j w e ha hc
        exact hs next hj
      have : w.leave = w := by
        rcases w with ⟨pending, _ | _, _ | _, taken⟩
        · rfl
        · rfl
        · rfl
        · exact absurd ⟨rfl, rfl⟩ hquiet
      simp [this]
  rw [TimerThreads.leave, hw]

theorem deliver (h : p.Orderly) (i : Nat) : (p.deliver i).Orderly := by
  refine h.of_workers _ _ (List.length_map ..) ?_
  intro j w' hw'
  rw [List.getElem?_map] at hw'
  obtain ⟨w, hw, rfl⟩ := Option.map_eq_some_iff.1 hw'
  refine ⟨w, hw, ?_⟩
  unfold Worker.receive
  grind

/-- without a worker the order is a matter of the stage alone -/
theorem of_not_alive (h : ∀ k, p.alive k = false) (hn : p.handle = none) (hf : p.Fits) : p.Orderly := by
  refine ⟨?_, ?_, ?_, ?_, ?_, hf⟩
  · intro k hk
    simp [h k] at hk
  · intro k hk
    simp [hn] at hk
  · intro k hk
    simp [h k] at hk
  · intro k w hw ha
    have hk := alive_eq_true_iff.2 ⟨w, hw, ha⟩
    simp [h k] at hk
  · intro next k w _ hk
    simp [hn] at hk

/-- while no worker is held, a stage is left for one whose needs are met -/
theorem of_handle_none (h : p.Orderly) (hn : p.handle = none) (p' : TimerThreads) (hw : p'.workers = p.workers)
    (hn' : p'.handle = none) (hf : p'.Fits) : p'.Orderly := by
  refine of_not_alive ?_ hn' hf
  intro k
  have := h.not_alive hn k
  rwa [alive, hw]

theorem spawned (h : p.Orderly) (hs : p.stage = .spawn) : p.spawned.Orderly := by
  have hf := h.fits
  simp only [Fits, hs] at hf
  obtain ⟨hn, hv, hd⟩ := hf
  have hnew : ∀ (j : Nat) (w : Worker), p.spawned.workers[j]? = some w → w.alive = true →
      j = p.workers.length ∧ w.cancelled = false := by
    intro j w hw ha
    rcases getElem?_spawned hw with hw | ⟨hj, rfl⟩
    · have := h.not_alive hn j
      simp [alive, hw, ha] at this
    · exact ⟨hj, rfl⟩
  refine ⟨?_, ?_, fun _ _ => ⟨hv, hd⟩, ?_, (fun _ _ _ hj => by cases hj), trivial⟩
  · intro k hk
    obtain ⟨w, hw, ha⟩ := alive_eq_true_iff.1 hk
    rw [(hnew k w hw ha).1]
    rfl
  · intro k hk
    cases hk
    simp [TimerThreads.spawned]
  · intro k w hw ha hc
    simp [(hnew k w hw ha).2] at hc

theorem hangUp (h : p.Orderly) (next : Purpose) : { p with workers := p.hungUp, stage := .join next }.Orderly := by
  have halive : ∀ j, { p with workers := p.hungUp, stage := .join next }.alive j = true → p.alive j = true := by
    intro j hj
    obtain ⟨w, hw, ha⟩ := alive_eq_true_iff.1 hj
    obtain ⟨w', hw', rfl⟩ := getElem?_hungUp hw
    exact alive_eq_true_iff.2 ⟨w', hw', by split at ha <;> exact ha⟩
  refine ⟨fun j hj => h.held j (halive j hj), fun j hj => p.length_hungUp.trans (h.last j hj),
    fun j hj => h.counting j (halive j hj), fun _ _ _ _ _ => ⟨next, rfl⟩, ?_, trivial⟩
  intro _ j w _ hj hw
  obtain ⟨w', -, rfl⟩ := getElem?_hungUp hw
  rw [if_pos hj]
  rfl

/-- once the thread is over the owner lets go of it -/
theorem joined (h : p.Orderly) (hh : p.held = false) (stage : Stage)
    (hf : { p with handle := none, stage := stage }.Fits) : { p with handle := none, stage := stage }.Orderly := by
  refine of_not_alive ?_ rfl hf
  intro k
  cases hk : p.alive k with
  | false => exact hk
  | true => simp [held_eq_true_iff.2 ⟨k, h.held k hk, hk⟩] at hh

theorem enabled (h : p.Orderly) (hs : p.stage = .enable) :
    { p with
      disabled := false
      stage := if p.value > 0 ∧ p.handle = none then .register else .idle }.Orderly := by
  split
  case isTrue hc => exact h.of_handle_none hc.2 _ rfl hc.2 ⟨hc.2, hc.1, rfl⟩
  case isFalse =>
    refine ⟨h.held, h.last, fun k hk => ⟨(h.counting k hk).1, rfl⟩, ?_, (fun _ _ _ hj => by cases hj), trivial⟩
    intro k w hw ha hc
    obtain ⟨next, hj⟩ := h.cancelled k w hw ha hc
    simp [hs] at hj

theorem act (h : p.Orderly) : p.act.Orderly := by
  have hf := h.fits
  unfold Fits at hf
  unfold TimerThreads.act
  split
  case h_1 => exact h
  case h_2 next hs => exact h.hangUp next
  case h_3 next hs =>
    split
    case isTrue => exact h
    case isFalse hh => exact h.joined (Bool.eq_false_iff.2 hh) _ rfl
  case h_4 value hs =>
    rw [hs] at hf
    refine h.of_handle_none hf _ rfl hf ?_
    cases hd : p.disabled with
    | true => trivial
    | false =>
      by_cases h0 : value = 0
      · simpa [Fits, h0] using hf
      · simpa [Fits, h0, UInt8.pos_iff_ne_zero] using hf
  case h_5 hs =>
    rw [hs] at hf
    exact h.of_handle_none hf _ rfl hf trivial
  case h_6 hs =>
    rw [hs] at hf
    exact h.of_handle_none hf _ rfl hf trivial
  case h_7 hs =>
    rw [hs] at hf
    exact h.of_handle_none hf.1 _ rfl hf.1 hf
  case h_8 hs => exact h.spawned hs
  case h_9 hs => exact h.enabled hs
  case h_10 hs =>
    split
    case isTrue => exact h
    case isFalse hh => exact h.joined (Bool.eq_false_iff.2 hh) _ trivial

theorem step (h : p.Orderly) (s : Step) : (p.step s).Orderly := by
  cases s with
  | act => exact h.act
  | take k => exact h.take k
  | leave k => exact h.leave k
  | call op =>
    simp only [TimerThreads.step]
    split
    case isFalse => exact h
    case isTrue hi =>
      refine ⟨h.held, h.last, h.counting, ?_, (fun _ _ _ hj => by cases op <;> cases hj), by cases op <;> trivial⟩
      intro k w hw ha hc
      obtain ⟨next, hj⟩ := h.cancelled k w hw ha hc
      simp [hi] at hj

end Orderly

/-! ## What changes a counter -/

/-- the counter is changed by a tick that a worker takes and by the store of a `set` -/
theorem value_step_ne {p : TimerThreads} {s : Step} (h : (p.step s).value ≠ p.value) :
    (∃ k i, s = .take k ∧ p.nextTick k = some i) ∨ ∃ v, s = .act ∧ p.stage = .commit (.store v) := by
  cases s with
  | call op =>
    simp only [step] at h
    split at h <;> exact absurd rfl h
  | leave k => exact absurd rfl h
  | take k =>
    cases hi : p.nextTick k with
    | none => simp [step, take, hi] at h
    | some i => exact .inl ⟨k, i, rfl, hi⟩
  | act =>
    simp only [step, act] at h
    split at h
    case h_4 v hs => exact .inr ⟨v, rfl, hs⟩
    case h_3 => split at h <;> exact absurd rfl h
    case h_10 => split at h <;> exact absurd rfl h
    all_goals exact absurd rfl h

/-! ## Operations come to their end -/

/-- a step with which no operation is called and no tick is taken -/
def Step.isQuiet : Step → Bool
  | .act | .leave _ => true
  | .call _ | .take _ => false

/-- quiet steps of the timer's threads can bring the owner's operation to its end -/
def CanFinish (p : TimerThreads) : Prop :=
  ∃ ss : List Step, ss.all Step.isQuiet = true ∧ (ss.foldl step p).stage = .idle

theorem CanFinish.of_idle {p : TimerThreads} (h : p.stage = .idle) : p.CanFinish :=
  ⟨[], rfl, h⟩

theorem CanFinish.of_step {p : TimerThreads} (s : Step) (hs : s.isQuiet = true) (h : (p.step s).CanFinish) :
    p.CanFinish := by
  obtain ⟨ss, hquiet, hidle⟩ := h
  exact ⟨s :: ss, by simp [hs, hquiet], hidle⟩

/-- from the moment the old task is gone the owner needs nobody -/
theorem canFinish_of_stage {p : TimerThreads}
    (h : p.stage = .idle ∨ p.stage = .silence ∨ p.stage = .register ∨ p.stage = .spawn) : p.CanFinish := by
  have hspawn : ∀ q : TimerThreads, q.stage = .spawn → q.CanFinish := fun q hq =>
    .of_step .act rfl (.of_idle (by simp [step, act, hq, spawned]))
  rcases h with hs | hs | hs | hs
  · exact .of_idle hs
  · exact .of_step .act rfl (.of_idle (by simp [step, act, hs]))
  · exact .of_step .act rfl (hspawn _ (by simp [step, act, hs]))
  · exact hspawn p hs

theorem canFinish_of_commit {p : TimerThreads} {next : Purpose} (hs : p.stage = .commit next) : p.CanFinish := by
  refine .of_step .act rfl (canFinish_of_stage ?_)
  cases next with
  | disable => simp [step, act, hs]
  | store value =>
    simp only [step, act, hs]
    split
    · exact .inl rfl
    · split
      · exact .inr (.inl rfl)
      · exact .inr (.inr (.inl rfl))

/-- a worker that was hung up on can leave, and then the owner goes on -/
theorem canFinish_of_join {p : TimerThreads} (h : p.Orderly) {next : Purpose} (hs : p.stage = .join next) :
    p.CanFinish := by
  have hfree : ∀ q : TimerThreads, q.stage = .join next → q.held = false → q.CanFinish := by
    intro q hq hh
    have hc : (q.step .act).stage = .commit next := by simp [step, act, hq, hh]
    exact .of_step .act rfl (canFinish_of_commit hc)
  cases hh : p.held with
  | false => exact hfree p hs hh
  | true =>
    obtain ⟨k, hk, ha⟩ := held_eq_true_iff.1 hh
    obtain ⟨w, hw, -⟩ := alive_eq_true_iff.1 ha
    have hc := h.asked next k w hs hk hw
    refine .of_step (.leave k) rfl (hfree _ hs ?_)
    simp [step, leave, held, hk, alive, hw, Worker.leave, hc]

/-- **No operation gets stuck.** Whatever operation the owner is in, except a wait, can be brought to its end. -/
theorem Orderly.canFinish {p : TimerThreads} (h : p.Orderly) (hs : p.stage ≠ .wait) : p.CanFinish := by
  cases e : p.stage with
  | idle => exact canFinish_of_stage (.inl e)
  | hangUp next =>
    have hj : p.act.stage = .join next := by simp [TimerThreads.act, e]
    exact .of_step .act rfl (canFinish_of_join h.act hj)
  | join next => exact canFinish_of_join h e
  | commit next => exact canFinish_of_commit e
  | silence => exact canFinish_of_stage (.inr (.inl e))
  | register => exact canFinish_of_stage (.inr (.inr (.inl e)))
  | spawn => exact canFinish_of_stage (.inr (.inr (.inr e)))
  | enable =>
    refine .of_step .act rfl (canFinish_of_stage ?_)
    simp only [TimerThreads.step, TimerThreads.act, e]
    split
    · exact .inr (.inr (.inl rfl))
    · exact .inl rfl
  | wait => exact absurd e hs

end TimerThreads

/-! ## Timers on one clock -/

/-- timers on a clock that ticks when told to, and how often it has ticked -/
structure SharedClock (ι : Type) where
  issued : Nat
  timers : ι → TimerThreads

namespace SharedClock

variable {ι : Type} [DecidableEq ι]

def new (name : ι → String) (speaker : ι → Option Speaker) : SharedClock ι :=
  ⟨0, fun x => .new (name x) (speaker x)⟩

/-- one thing that happens: a tick, or a step of a thread of timer `x` -/
inductive Event (ι : Type) where
  | tick
  | thread (x : ι) (s : TimerThreads.Step)
  deriving DecidableEq, Repr

def step (c : SharedClock ι) : Event ι → SharedClock ι
  | .tick => ⟨c.issued + 1, fun x => (c.timers x).deliver c.issued⟩
  | .thread x s => { c with timers := fun y => if y = x then (c.timers x).step s else c.timers y }

def run (es : List (Event ι)) (c : SharedClock ι) : SharedClock ι :=
  es.foldl step c

@[simp] theorem run_cons (e : Event ι) (es : List (Event ι)) (c : SharedClock ι) :
    run (e :: es) c = run es (c.step e) := rfl

/-- a value on the clock is changed by a tick that a worker takes and by the store of a `set` -/
theorem value_event_ne {c : SharedClock ι} {x : ι} {e : Event ι}
    (h : ((c.step e).timers x).value ≠ (c.timers x).value) :
    (∃ k i, e = .thread x (.take k) ∧ (c.timers x).nextTick k = some i) ∨
      ∃ v, e = .thread x .act ∧ (c.timers x).stage = .commit (.store v) := by
  cases e with
  | tick => exact absurd rfl h
  | thread y s =>
    by_cases hy : x = y
    · subst hy
      rcases TimerThreads.value_step_ne (by simpa [step] using h) with ⟨k, i, rfl, hk⟩ | ⟨v, rfl, hs⟩
      · exact .inl ⟨k, i, rfl, hk⟩
      · exact .inr ⟨v, rfl, hs⟩
    · exact absurd (by simp [step, hy]) h

/-- what each delivery and each step of its threads keeps, a timer keeps through a whole run. Of the steps only those
count that the run makes. -/
theorem run_keeps {P : Nat → TimerThreads → Prop} {x : ι} (es : List (Event ι)) {c : SharedClock ι}
    (htick : ∀ i p, P i p → P (i + 1) (p.deliver i))
    (hstep : ∀ i p s, .thread x s ∈ es → P i p → P i (p.step s))
    (h : P c.issued (c.timers x)) : P (run es c).issued ((run es c).timers x) := by
  induction es generalizing c with
  | nil => exact h
  | cons e es ih =>
    refine ih (fun i p s hs => hstep i p s (List.mem_cons_of_mem e hs)) ?_
    cases e with
    | tick => exact htick c.issued _ h
    | thread y s =>
      simp only [step]
      split
      case isTrue hxy =>
        subst hxy
        exact hstep _ _ s List.mem_cons_self h
      case isFalse => exact h

/-- some run of new timers on a new clock leads here -/
def Reachable (c : SharedClock ι) : Prop :=
  ∃ name speaker es, c = run es (new name speaker)

/-- **Order in every run.** Whatever happens on a new clock, in whatever order, the threads of each timer are in
order. -/
theorem Reachable.orderly {c : SharedClock ι} (hc : c.Reachable) (x : ι) : (c.timers x).Orderly := by
  obtain ⟨name, speaker, es, rfl⟩ := hc
  exact run_keeps es (P := fun _ p => p.Orderly) (fun i _ h => h.deliver i) (fun _ _ s _ h => h.step s)
    (TimerThreads.orderly_new _ _)

end SharedClock

end Chip8
