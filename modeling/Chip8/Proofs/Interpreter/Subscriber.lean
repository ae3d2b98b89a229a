/-
The subscriber of an interpreter. What an action does to the subscriber's channel can be read off its notes
(`Action.traffic`): it offers the events that are noted as published, and a reading takes one. The queue of a monitor
holds what waits in the channel, action by action, so that the notes stand for what is published and the queue shows it.

Results:
- `perform_offered`, `performAll_offered`: the queue after an action and after any run;
- `offers_trafficIn`: what a run offers is what it notes as published;
- `pauses_trafficIn`: among this the pauses;
- `subscribed_events`: the queue of a subscriber who comes in the middle of a run.
-/
import Chip8.Proofs.Interpreter.Turn
import Chip8.Proofs.Monitor.Channel

namespace Chip8.Interpreter

open Monitor

variable {σ δ : Type} [Input σ] [Display δ]

/-! ## Actions -/

/-- does the action attach or detach the subscriber? -/
def Action.isSubscription : Action σ δ → Bool
  | .subscribe | .unsubscribe => true
  | _ => false

/-- what an action does to the subscriber's channel, when these notes are made in it -/
def Action.traffic (notes : List Note) : Action σ δ → List Traffic
  | .receive => [.taken]
  | _ => (Note.published notes).map .offered

/-- what a list of actions does to the subscriber's channel -/
def trafficIn : List (Action σ δ) → Interpreter σ δ → List Traffic
  | [], _ => []
  | a :: as, s => a.traffic (s.perform a).notes ++ trafficIn as (s.perform a).val

theorem perform_offered {s : Interpreter σ δ} {c : Channel} {a : Action σ δ} (h : s.monitor.events = some c.pending)
    (hkeeps : a.isSubscription = false) :
    (s.perform a).val.monitor.events = some (c.after (a.traffic (s.perform a).notes)).pending := by
  have hoffered : ∀ {m : Monitor} {notes : List Note}, Offered s.monitor m notes →
      m.events = some (c.after ((Note.published notes).map .offered)).pending := by
    intro m notes hm
    rw [hm, h, Option.map_some, Channel.pending_after_offers]
  cases a with
  | subscribe => cases hkeeps
  | unsubscribe => cases hkeeps
  | step =>
    rw [perform, Noted.val_map, Noted.notes_map]
    exact hoffered (step_story s).offered
  | turn =>
    rw [perform, Noted.val_map, Noted.notes_map]
    exact hoffered (turn_chained Offered.chained s)
  | receive => exact congrArg (Option.map List.tail) h
  | send cmd => exact h
  | world change => exact h

/-! ## Runs -/

/-- **The subscriber's queue.** As long as the subscriber stays, its queue holds what waits in its channel. -/
theorem performAll_offered {s : Interpreter σ δ} {c : Channel} {as : List (Action σ δ)}
    (h : s.monitor.events = some c.pending) (hkeeps : ∀ a ∈ as, a.isSubscription = false) :
    (performAll as s).val.monitor.events = some (c.after (trafficIn as s)).pending := by
  induction as generalizing s c with
  | nil => exact h
  | cons a as ih =>
    obtain ⟨ha, has⟩ := List.forall_mem_cons.1 hkeeps
    rw [trafficIn, Channel.after_append]
    exact ih (perform_offered h ha) has

/-- everything published is offered to the channel -/
theorem offers_trafficIn (as : List (Action σ δ)) (s : Interpreter σ δ) :
    Traffic.offers (trafficIn as s) = Note.published (performAll as s).notes := by
  have hoffers : ∀ events : List Event, Traffic.offers (events.map .offered) = events := by
    intro events
    rw [Traffic.offers, List.filterMap_map]
    exact List.filterMap_some
  induction as generalizing s with
  | nil => rfl
  | cons a as ih =>
    rw [trafficIn, Traffic.offers_append, ih, performAll, Noted.notes_bind, Note.published_append]
    cases a with
    | receive => rfl
    | _ => exact congrArg (· ++ _) (hoffers _)

/-- the pauses that a run offers are those that it notes -/
theorem pauses_trafficIn (as : List (Action σ δ)) (s : Interpreter σ δ) :
    (Traffic.offers (trafficIn as s)).filterMap Event.pause? = Note.pauses (performAll as s).notes := by
  rw [offers_trafficIn, Note.filterMap_pause?_published]

/-! ## Subscribers -/

omit [Input σ] [Display δ] in
theorem create_events (m : Machine) (input : σ) (display : δ) (config : Config) :
    (create m Monitor.fresh.subscribe input display config).val.monitor.events = some [] := by
  obtain ⟨breakpoints, commands, hset⟩ := configureMonitor_frame config Monitor.fresh.subscribe
  show (configureMonitor config Monitor.fresh.subscribe).events = some []
  rw [hset]
  rfl

/-- **Subscribers.** Whoever subscribes in the middle of a run and stays finds in the queue what is published from then
on, as far as it had room and is not read yet. -/
theorem subscribed_events {before during : List (Action σ δ)} (s : Interpreter σ δ)
    (hkeeps : ∀ a ∈ during, a.isSubscription = false) :
    (performAll (before ++ .subscribe :: during) s).val.monitor.events =
      some (Channel.empty.after (trafficIn during (performAll (before ++ [.subscribe]) s).val)).pending := by
  have hsplit : before ++ .subscribe :: during = (before ++ [.subscribe]) ++ during := by
    rw [List.append_assoc]
    rfl
  have hlistens : (performAll (before ++ [.subscribe]) s).val.monitor.events = some [] := by
    rw [performAll_append]
    rfl
  rw [hsplit, performAll_append]
  exact performAll_offered (c := .empty) hlistens hkeeps

end Chip8.Interpreter
