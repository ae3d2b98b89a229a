/-
A beeper touches its speaker on the edges only. It is asked for the tone again and again, and keeps in one flag whether
the tone is on; the flag changes when the speaker has accepted a write, and not before. So, whatever is asked for and
whichever writes the speaker refuses, the writes it accepts are on, off, on, off and so on, and the flag says which one
was the last.

Results:
- `switch_cases`: a call is about the state there is, or it is refused, or it is an edge;
- `InStep.perform`: flag and writes stay in step through a call;
- `tone_changes_on_edges`: whole runs of calls, and what one more call does after any of them.
-/
import Mathlib.Data.List.Induction
import Chip8.Sound

namespace Chip8.Beeper

/-! ## Calls in a row -/

/-- one call: what is asked for, and why the speaker refuses a write that comes now, if it does -/
structure Request where
  on : Bool
  refusal : Option String
  deriving DecidableEq, Repr

/-- a write that the speaker accepted: what was asked for, and the frequency it was given -/
structure Write where
  on : Bool
  hertz : UInt16
  deriving DecidableEq, Repr

/-- the write that switches a tone on or off -/
def writeOf (pitch : UInt16) (on : Bool) : Write :=
  ⟨on, if on then pitch else 0⟩

/-- make a call -/
def perform (b : Beeper) (q : Request) : Call :=
  b.switch q.on q.refusal

/-- the write of a call, if the speaker accepted one -/
def accepted (b : Beeper) (q : Request) : Option Write :=
  (b.perform q).sent.map fun hertz => ⟨q.on, hertz⟩

/-- the beeper after calls in order -/
def after (qs : List Request) (b : Beeper) : Beeper :=
  qs.foldl (fun b q => (b.perform q).beeper) b

/-- the writes that the speaker accepted in calls in order -/
def writes : List Request → Beeper → List Write
  | [], _ => []
  | q :: qs, b => (b.accepted q).toList ++ writes qs (b.perform q).beeper

/-- no tone -/
def silence : Write :=
  ⟨false, 0⟩

/-- the state of a speaker that was silent at first: the last write that it accepted -/
def speakerAfter (ws : List Write) : Write :=
  ws.getLast?.getD silence

theorem after_concat (qs : List Request) (q : Request) (b : Beeper) :
    after (qs ++ [q]) b = ((after qs b).perform q).beeper := by
  simp [after]

theorem writes_concat (qs : List Request) (q : Request) (b : Beeper) :
    writes (qs ++ [q]) b = writes qs b ++ ((after qs b).accepted q).toList := by
  induction qs generalizing b with
  | nil => simp [writes, after]
  | cons q' qs ih => rw [List.cons_append, writes, ih, writes, List.append_assoc]; rfl

/-! ## One call -/

/-- **A call.** It asks for the state there is and makes no write, or its write is refused and it changes nothing, or
its write is accepted and it is an edge. -/
theorem switch_cases (b : Beeper) (on : Bool) (refusal : Option String) :
    (b.beeping = on ∧ b.switch on refusal = ⟨b, none, none⟩) ∨
    (b.beeping = !on ∧ ∃ why, refusal = some why ∧ b.switch on refusal = ⟨b, none, some why⟩) ∨
    (b.beeping = !on ∧ refusal = none ∧
      b.switch on refusal = ⟨⟨b.pitch, on⟩, some (writeOf b.pitch on).hertz, none⟩) := by
  unfold switch
  by_cases h : b.beeping = on
  · exact .inl ⟨h, if_pos h⟩
  · rw [if_neg h]
    have hedge : b.beeping = !on := Bool.eq_not_of_ne h
    cases refusal with
    | some why => exact .inr (.inl ⟨hedge, why, rfl, rfl⟩)
    | none => exact .inr (.inr ⟨hedge, rfl, rfl⟩)

/-! ## Whole runs -/

/-- the first `n` of the writes on, off, on, off and so on -/
def edges (pitch : UInt16) (n : Nat) : List Write :=
  (List.range n).map fun k => writeOf pitch (k % 2 == 0)

theorem edges_succ (pitch : UInt16) (n : Nat) :
    edges pitch (n + 1) = edges pitch n ++ [writeOf pitch (n % 2 == 0)] := by
  simp [edges, List.range_succ]

@[simp] theorem length_edges (pitch : UInt16) (n : Nat) : (edges pitch n).length = n := by
  simp [edges]

/-- the writes so far alternate, and the flag tells whether the last one switched the tone on -/
structure InStep (pitch : UInt16) (b : Beeper) (ws : List Write) : Prop where
  pitch_eq : b.pitch = pitch
  beeping_eq : b.beeping = (ws.length % 2 == 1)
  edges_eq : ws = edges pitch ws.length

namespace InStep

variable {pitch : UInt16} {b : Beeper} {ws : List Write}

theorem ofPitch (pitch : UInt16) : InStep pitch (.ofPitch pitch) [] :=
  ⟨rfl, rfl, rfl⟩

/-- the edge that comes next is the one that the flag does not stand for -/
theorem next (h : InStep pitch b ws) {on : Bool} (hedge : b.beeping = !on) : (ws.length % 2 == 0) = on := by
  have hparity := h.beeping_eq
  rw [hedge] at hparity
  cases on <;> grind

/-- **One call.** Flag and writes stay in step, also when the call is refused. -/
theorem perform (h : InStep pitch b ws) (q : Request) :
    InStep pitch (b.perform q).beeper (ws ++ (b.accepted q).toList) := by
  unfold accepted Beeper.perform
  rcases b.switch_cases q.on q.refusal with ⟨-, hcall⟩ | ⟨-, why, -, hcall⟩ | ⟨hedge, -, hcall⟩
  · rw [hcall]
    simpa using h
  · rw [hcall]
    simpa using h
  · have hnext := h.next hedge
    rw [hcall, h.pitch_eq]
    refine ⟨rfl, ?_, ?_⟩
    · rw [← hnext, Option.map_some, Option.toList_some, List.length_append, List.length_singleton]
      grind
    · rw [Option.map_some, Option.toList_some, List.length_append, List.length_singleton, edges_succ, hnext,
        ← h.edges_eq]
      rfl

/-- what the flag says of the speaker -/
theorem speakerAfter_eq (h : InStep pitch b ws) : speakerAfter ws = writeOf pitch b.beeping := by
  rw [h.beeping_eq, h.edges_eq, length_edges]
  cases ws.length with
  | zero => rfl
  | succ n =>
    rw [edges_succ, speakerAfter, List.getLast?_concat, Option.getD_some]
    congr 1
    grind

/-- the tone is on just when the last write that was accepted switched it on -/
theorem beeping_iff (h : InStep pitch b ws) : b.beeping = true ↔ ws.getLast?.map Write.on = some true := by
  have hspeaker := congrArg Write.on h.speakerAfter_eq
  rw [show b.beeping = (writeOf pitch b.beeping).on from rfl, ← hspeaker, speakerAfter]
  cases ws.getLast? with
  | none => simp [silence]
  | some w => simp

end InStep

theorem inStep_writes (pitch : UInt16) (qs : List Request) :
    InStep pitch (after qs (ofPitch pitch)) (writes qs (ofPitch pitch)) := by
  induction qs using List.reverseRecOn with
  | nil => exact .ofPitch pitch
  | append_singleton qs q ih =>
    rw [after_concat, writes_concat]
    exact ih.perform q

/-- a call that goes well leaves the tone as it was asked for -/
theorem beeping_of_accepted (b : Beeper) {q : Request} (hok : (b.perform q).refusal = none) :
    (b.perform q).beeper.beeping = q.on := by
  unfold perform at hok ⊢
  rcases b.switch_cases q.on q.refusal with ⟨hsame, hcall⟩ | ⟨-, why, -, hcall⟩ | ⟨-, -, hcall⟩
  · rw [hcall]
    exact hsame
  · rw [hcall] at hok
    cases hok
  · rw [hcall]

/-- a call that is refused was an edge: it changes nothing, and made again it is an edge again -/
theorem of_refused {b : Beeper} {q : Request} {why : String} (h : (b.perform q).refusal = some why) :
    (b.perform q).beeper = b ∧ b.accepted q = none ∧
      ∀ answer, (b.switch q.on answer).refusal = answer ∧
        (answer = none → (b.switch q.on answer).sent = some (writeOf b.pitch q.on).hertz) := by
  unfold accepted perform at *
  rcases b.switch_cases q.on q.refusal with ⟨-, hcall⟩ | ⟨hedge, why', -, hcall⟩ | ⟨-, -, hcall⟩
  · rw [hcall] at h
    cases h
  · rw [hcall]
    refine ⟨rfl, rfl, fun answer => ?_⟩
    rcases b.switch_cases q.on answer with ⟨hsame, -⟩ | ⟨-, why'', rfl, hagain⟩ | ⟨-, rfl, hagain⟩
    · rw [hsame] at hedge
      simp at hedge
    · rw [hagain]
      exact ⟨rfl, fun hnone => by cases hnone⟩
    · rw [hagain]
      exact ⟨rfl, fun _ => rfl⟩
  · rw [hcall] at h
    cases h

/-- **The tone changes on edges.** After any calls on a new beeper, with a speaker that refuses any of the writes:
- the writes that it accepted are on, off, on, off and so on, with the pitch for on and zero for off;
- the flag is set just when the last of them switched the tone on;
- one more call that goes well leaves the speaker as it was asked for;
- one that is refused changes neither the beeper nor the speaker, and when it is made again it is up to the speaker
  again: it is refused once more, or the write is made. -/
theorem tone_changes_on_edges (pitch : UInt16) (qs : List Request) :
    let b := after qs (ofPitch pitch)
    let ws := writes qs (ofPitch pitch)
    ws = edges pitch ws.length ∧
    (b.beeping = true ↔ ws.getLast?.map Write.on = some true) ∧
    ∀ q, let call := b.perform q
      let ws' := writes (qs ++ [q]) (ofPitch pitch)
      (call.refusal = none → speakerAfter ws' = writeOf pitch q.on) ∧
      ∀ why, call.refusal = some why → call.beeper = b ∧ ws' = ws ∧
        ∀ answer, (call.beeper.switch q.on answer).refusal = answer ∧
          (answer = none → (call.beeper.switch q.on answer).sent = some (writeOf pitch q.on).hertz) := by
  intro b ws
  have hstep : InStep pitch b ws := inStep_writes pitch qs
  refine ⟨hstep.edges_eq, hstep.beeping_iff, ?_⟩
  intro q call ws'
  have hlater : InStep pitch call.beeper ws' := by
    have hcalls := inStep_writes pitch (qs ++ [q])
    rwa [after_concat] at hcalls
  constructor
  · intro hok
    rw [hlater.speakerAfter_eq, beeping_of_accepted b hok]
  · intro why hrefused
    obtain ⟨hbeeper, hnone, hagain⟩ := of_refused hrefused
    refine ⟨hbeeper, ?_, ?_⟩
    · show writes (qs ++ [q]) (ofPitch pitch) = ws
      rw [writes_concat, hnone]
      exact List.append_nil _
    · rw [hbeeper, ← hstep.pitch_eq]
      exact hagain

/-- asked to stop while it is silent, for a tone that is refused, and for a tone twice -/
def onceOn : List Request :=
  [⟨false, none⟩, ⟨true, some "no speaker"⟩, ⟨true, none⟩, ⟨true, some "no speaker"⟩]

/-- One write was accepted. When the stop after it is refused the tone stays on, and stopping it again is a write. -/
theorem refused_stop_can_be_repeated :
    let stop : Request := ⟨false, some "no speaker"⟩
    let call := (after onceOn (ofPitch 440)).perform stop
    writes onceOn (ofPitch 440) = edges 440 1 ∧ call.refusal = some "no speaker" ∧ call.beeper.beeping = true ∧
      speakerAfter (writes (onceOn ++ [stop]) (ofPitch 440)) = writeOf 440 true ∧
      (call.beeper.switch false none).sent = some 0 := by
  intro stop call
  obtain ⟨halternate, hflag, hcalls⟩ := tone_changes_on_edges 440 onceOn
  have hrefused : call.refusal = some "no speaker" := rfl
  obtain ⟨hbeeper, hwrites, hagain⟩ := (hcalls stop).2 _ hrefused
  refine ⟨halternate, hrefused, ?_, ?_, (hagain none).2 rfl⟩
  · rw [hbeeper]
    exact hflag.2 rfl
  · rw [hwrites]
    rfl

end Chip8.Beeper
