/-
The subscriber's channel. A monitor offers its events to a queue that holds at most 64 of them (`eventCapacity`), and
the subscriber takes them from the other end whenever it likes, also while a turn is being made. `Traffic` is any order
in which this may happen.

What gets through is what was taken and what still waits (`through`). An event is lost only if the queue was full when
it was offered.

Results:
- `through_sublist`: what gets through was offered, in this order;
- `arrives`: an event that is offered to a queue with room gets through, right after those before it;
- `through_of_keepsUp`: everything gets through to a subscriber who reads often enough;
- `Story.offered`, `tell_offered`: a monitor offers what it notes as published, and nothing else.
-/
import Mathlib.Data.List.Induction
import Chip8.Proofs.Monitor.Story

namespace Chip8

/-! ## What is published -/

/-- the event that a note stands for, if it was published -/
def Note.event? : Note → Option Event
  | .paused pc => some (.paused pc)
  | .fault pc f => some (.fault pc f)
  | _ => none

/-- the events published among the notes, in order -/
def Note.published (notes : List Note) : List Event :=
  notes.filterMap event?

@[simp] theorem Note.published_append (l l' : List Note) : published (l ++ l') = published l ++ published l' :=
  List.filterMap_append

theorem Note.published_of_silent {notes : List Note} (h : Silent notes) : published notes = [] := by
  refine List.filterMap_eq_nil_iff.2 fun n hn => ?_
  have hsilent := h n hn
  cases n with
  | paused pc => cases hsilent
  | fault pc f => cases hsilent
  | _ => rfl

/-- the fault that an event reports, with its address -/
def Event.fault? : Event → Option (UInt16 × Fault)
  | .fault pc f => some (pc, f)
  | .paused _ => none

/-- the event that reports a fault -/
def Event.ofFault (p : UInt16 × Fault) : Event :=
  .fault p.1 p.2

theorem Event.filterMap_fault?_map_paused (pcs : List UInt16) : (pcs.map Event.paused).filterMap fault? = [] := by
  rw [List.filterMap_map]
  exact List.filterMap_eq_nil_iff.2 fun _ _ => rfl

theorem Event.filterMap_fault?_map_ofFault (faults : List (UInt16 × Fault)) :
    (faults.map ofFault).filterMap fault? = faults := by
  rw [List.filterMap_map]
  exact List.filterMap_some

/-- where an event reports a pause -/
def Event.pause? : Event → Option UInt16
  | .paused pc => some pc
  | .fault _ _ => none

/-- the pauses among what is published are the pauses that are noted -/
theorem Note.filterMap_pause?_published (notes : List Note) :
    (published notes).filterMap Event.pause? = pauses notes := by
  rw [published, List.filterMap_filterMap, pauses]
  refine congrArg (fun f => notes.filterMap f) (funext fun n => ?_)
  cases n with
  | _ => rfl

/-! ## Traffic -/

/-- one thing that happens to a channel -/
inductive Traffic where
  | offered (event : Event)
  /-- the subscriber takes the oldest event that waits, if one does -/
  | taken
  deriving DecidableEq

/-- the events offered, in order -/
def Traffic.offers (traffic : List Traffic) : List Event :=
  traffic.filterMap fun
    | .offered e => some e
    | .taken => none

theorem Traffic.offers_append (l l' : List Traffic) : offers (l ++ l') = offers l ++ offers l' :=
  List.filterMap_append

/-- what a queue holds when an event has been offered to it: a full one drops the event -/
def Monitor.enqueue (waiting : List Event) (e : Event) : List Event :=
  if waiting.length < eventCapacity then waiting ++ [e] else waiting

/-- what the subscriber has taken, and what waits for it, both oldest first -/
structure Channel where
  received : List Event
  pending : List Event
  deriving DecidableEq

namespace Channel

/-- nothing has happened yet -/
def empty : Channel :=
  ⟨[], []⟩

/-- what gets through -/
def through (c : Channel) : List Event :=
  c.received ++ c.pending

def next (c : Channel) : Traffic → Channel
  | .offered e => { c with pending := Monitor.enqueue c.pending e }
  | .taken => ⟨c.received ++ c.pending.take 1, c.pending.tail⟩

/-- carry out traffic in order -/
def after (traffic : List Traffic) (c : Channel) : Channel :=
  traffic.foldl next c

theorem after_append (before later : List Traffic) (c : Channel) :
    c.after (before ++ later) = (c.after before).after later :=
  List.foldl_append

theorem through_taken (c : Channel) : (c.next .taken).through = c.through := by
  rw [next, through, through, List.append_assoc]
  cases c.pending <;> rfl

theorem through_offered (c : Channel) (e : Event) :
    (c.next (.offered e)).through = c.through ++ if c.pending.length < Monitor.eventCapacity then [e] else [] := by
  simp only [next, through, Monitor.enqueue]
  split
  · rw [List.append_assoc]
  · rw [List.append_nil]

/-- later traffic only adds to what gets through, and only what it offers -/
theorem through_after (traffic : List Traffic) (c : Channel) :
    ∃ more, more.Sublist (Traffic.offers traffic) ∧ (c.after traffic).through = c.through ++ more := by
  induction traffic generalizing c with
  | nil => exact ⟨[], List.Sublist.refl [], (List.append_nil _).symm⟩
  | cons t traffic ih =>
    obtain ⟨more, hmore, hthrough⟩ := ih (c.next t)
    cases t with
    | taken => exact ⟨more, hmore, hthrough.trans (by rw [through_taken])⟩
    | offered e =>
      refine ⟨_, ?_, hthrough.trans (by rw [through_offered, List.append_assoc])⟩
      split
      · exact hmore.cons_cons e
      · exact hmore.cons e

/-- **Order.** What gets through was offered, in this order. -/
theorem through_sublist (traffic : List Traffic) :
    (empty.after traffic).through.Sublist (Traffic.offers traffic) := by
  obtain ⟨more, hmore, hthrough⟩ := through_after traffic empty
  rw [hthrough]
  exact hmore

/-- **Arrival.** An event that is offered to a queue with room gets through, right after those before it. -/
theorem arrives {before later : List Traffic} {e : Event}
    (h : (empty.after before).pending.length < Monitor.eventCapacity) :
    (empty.after before).through ++ [e] <+: (empty.after (before ++ .offered e :: later)).through := by
  -- the event is let in when it is offered, and nothing that comes later takes it back
  obtain ⟨more, -, hthrough⟩ := through_after later ((empty.after before).next (.offered e))
  have hlater : (empty.after (before ++ .offered e :: later)) =
      ((empty.after before).next (.offered e)).after later := after_append before (.offered e :: later) empty
  rw [hlater, hthrough, through_offered, if_pos h]
  exact List.prefix_append _ _

/-- the subscriber reads often enough: no event finds the queue full -/
def KeepsUp (traffic : List Traffic) : Prop :=
  ∀ before e later, traffic = before ++ .offered e :: later →
    (empty.after before).pending.length < Monitor.eventCapacity

/-- a queue that has room for all that is offered is never full -/
theorem keepsUp_of_length_le {traffic : List Traffic} (h : (Traffic.offers traffic).length ≤ Monitor.eventCapacity) :
    KeepsUp traffic := by
  rintro before e later rfl
  have hwaits : (empty.after before).pending.length ≤ (empty.after before).through.length := by
    rw [through, List.length_append]
    exact Nat.le_add_left _ _
  have hthrough : (empty.after before).through.length ≤ (Traffic.offers before).length := (through_sublist before).length_le
  have hoffers : Traffic.offers (before ++ .offered e :: later) =
      Traffic.offers before ++ e :: Traffic.offers later := Traffic.offers_append before (.offered e :: later)
  rw [hoffers, List.length_append, List.length_cons] at h
  omega

/-- to a subscriber who reads often enough, everything gets through -/
theorem through_of_keepsUp {traffic : List Traffic} (h : KeepsUp traffic) :
    (empty.after traffic).through = Traffic.offers traffic := by
  induction traffic using List.reverseRecOn with
  | nil => rfl
  | append_singleton traffic t ih =>
    have hbefore : KeepsUp traffic := by
      intro before e later htraffic
      exact h before e (later ++ [t]) (by rw [htraffic, List.append_assoc]; rfl)
    have hlast : empty.after (traffic ++ [t]) = (empty.after traffic).next t := after_append traffic [t] empty
    rw [hlast, Traffic.offers_append, ← ih hbefore]
    cases t with
    | taken =>
      rw [through_taken]
      exact (List.append_nil _).symm
    | offered e => rw [through_offered, if_pos (h traffic e [] rfl)]; rfl

theorem pending_after_offers (events : List Event) (c : Channel) :
    (c.after (events.map .offered)).pending = events.foldl Monitor.enqueue c.pending := by
  induction events generalizing c with
  | nil => rfl
  | cons e events ih => exact ih (c.next (.offered e))

end Channel

/-! ## The monitor's end -/

namespace Monitor

/-- from one monitor to a later one, the events noted as published are offered to the queue, and no others -/
def Offered (m m' : Monitor) (notes : List Note) : Prop :=
  m'.events = m.events.map fun waiting => (Note.published notes).foldl enqueue waiting

theorem Offered.of_silent {m m' : Monitor} {notes : List Note} (h : Note.Silent notes) (hm : m'.events = m.events) :
    Offered m m' notes := by
  rw [Offered, Note.published_of_silent h, hm]
  exact Option.map_id'.symm

theorem Offered.append {m m' m'' : Monitor} {l l' : List Note} (h : Offered m m' l) (h' : Offered m' m'' l') :
    Offered m m'' (l ++ l') := by
  rw [Offered] at h h'
  rw [Offered, h', h, Option.map_map]
  simp only [Function.comp_def, Note.published_append, List.foldl_append]

theorem Story.offered {m m' : Monitor} {notes : List Note} (h : Story m notes m') : Offered m m' notes := by
  induction h with
  | quiet silent _ events => exact .of_silent silent events
  | paused _ _ events => exact events
  | resumed _ _ events => exact events.trans Option.map_id'.symm
  | append _ _ first rest => exact first.append rest

/-- in a story, what is published are its pauses -/
theorem Story.published {m m' : Monitor} {notes : List Note} (h : Story m notes m') :
    Note.published notes = (Note.pauses notes).map .paused := by
  induction h with
  | quiet silent _ _ => rw [Note.published_of_silent silent, Note.pauses_of_silent silent, List.map_nil]
  | paused _ _ _ => rfl
  | resumed _ _ _ => rfl
  | append _ _ first rest => rw [Note.published_append, Note.pauses_append, List.map_append, first, rest]

theorem tell_offered (m : Monitor) (new : Option (UInt16 × Fault)) : Offered m (m.tell new).val (m.tell new).notes := by
  cases new with
  | none => exact .of_silent Note.silent_nil rfl
  | some p =>
    have hevents : (m.reportFault p.1 p.2).val.events = m.heard (.fault p.1 p.2) := by rw [reportFault, publish_val]
    rw [Offered, tell, Noted.val_bind, Noted.notes_bind, Note.published_append, hevents]
    rw [reportFault, Note.published_of_silent (publish_silent _ _)]
    rfl

theorem Offered.chained : Chained Offered :=
  ⟨Story.offered, tell_offered, Offered.append⟩

theorem published_tell (m : Monitor) (new : Option (UInt16 × Fault)) :
    Note.published (m.tell new).notes = new.toList.map .ofFault := by
  cases new with
  | none => rfl
  | some p =>
    rw [tell, Noted.notes_bind, Note.published_append, reportFault, Note.published_of_silent (publish_silent _ _)]
    rfl

end Monitor

end Chip8
