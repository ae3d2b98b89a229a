/-
What a monitor says mirrors its run state. A monitor pauses at a command, at a breakpoint, or because the machine is
stuck, and each time it says so; a resume that takes effect is noted, and the end of a single step takes it back to
paused without a word.

What carries the proofs is that pauses and resumes take turns (`Note.switched`, `Mirrored`): a pause is published only
by a running monitor, and a resume is noted only by an active one.

Results:
- `length_pauses`, `exists_resumed_between`: what it means for pauses and resumes to take turns;
- `Story.mirrored`: they do so in all that a monitor does;
- `resumes_permit`: the resumes that a question notes are those that take effect in it.
-/
import Chip8.Proofs.Monitor.Story

namespace Chip8

namespace Note

/-! ## Pauses and resumes in turn -/

/-- is the monitor active after one more note? It pauses only while running and is resumed only while active. -/
def switched (active : Bool) : Note → Option Bool
  | paused _ => if active then none else some true
  | resumed _ => if active then some false else none
  | _ => some active

theorem switched_of_silent {n : Note} (h : n.isReport = false) (active : Bool) : n.switched active = some active := by
  cases n with
  | paused pc => cases h
  | resumed pc => cases h
  | _ => rfl

theorem foldlM_switched_of_silent {notes : List Note} (h : Silent notes) (active : Bool) :
    notes.foldlM switched active = some active := by
  induction notes with
  | nil => rfl
  | cons n notes ih =>
    obtain ⟨hn, hrest⟩ := List.forall_mem_cons.1 h
    rw [List.foldlM_cons, switched_of_silent hn]
    exact ih hrest

/-- where they take turns, there are as many pauses as resumes, but for the run state at both ends -/
theorem length_pauses {notes : List Note} {a b : Bool} (h : notes.foldlM switched a = some b) :
    (pauses notes).length + a.toNat = (resumes notes).length + b.toNat := by
  induction notes generalizing a with
  | nil =>
    cases h
    rfl
  | cons n notes ih =>
    rw [List.foldlM_cons] at h
    obtain ⟨c, hc, hrest⟩ := Option.bind_eq_some_iff.1 h
    have hcount := ih hrest
    cases n with
    | paused pc =>
      cases a with
      | true => cases hc
      | false =>
        cases hc
        simp only [pauses, resumes, List.filterMap_cons, List.length_cons, Bool.toNat_true,
          Bool.toNat_false] at hcount ⊢
        omega
    | resumed pc =>
      cases a with
      | false => cases hc
      | true =>
        cases hc
        simp only [pauses, resumes, List.filterMap_cons, List.length_cons, Bool.toNat_true,
          Bool.toNat_false] at hcount ⊢
        omega
    | _ =>
      cases hc
      exact hcount

/-- after a pause comes no other one before a resume -/
theorem exists_resumed_of_paused {between after : List Note} {q : UInt16} {b : Bool}
    (h : (between ++ .paused q :: after).foldlM switched true = some b) : ∃ r, .resumed r ∈ between := by
  induction between with
  | nil => cases h
  | cons n between ih =>
    rw [List.cons_append, List.foldlM_cons] at h
    obtain ⟨c, hc, hrest⟩ := Option.bind_eq_some_iff.1 h
    cases n with
    | paused pc => cases hc
    | resumed pc => exact ⟨pc, List.mem_cons_self⟩
    | _ =>
      cases hc
      obtain ⟨r, hr⟩ := ih hrest
      exact ⟨r, List.mem_cons_of_mem _ hr⟩

/-- where pauses and resumes take turns, there is a resume between any two pauses -/
theorem exists_resumed_between {before between after : List Note} {p q : UInt16} {a b : Bool}
    (h : (before ++ .paused p :: (between ++ .paused q :: after)).foldlM switched a = some b) :
    ∃ r, .resumed r ∈ between := by
  rw [List.foldlM_append] at h
  obtain ⟨c, -, hrest⟩ := Option.bind_eq_some_iff.1 h
  rw [List.foldlM_cons] at hrest
  obtain ⟨d, hd, hlater⟩ := Option.bind_eq_some_iff.1 hrest
  cases c with
  | true => cases hd
  | false =>
    cases hd
    exact exists_resumed_of_paused hlater

end Note

namespace Monitor

/-! ## What a monitor says -/

/-- from one monitor to a later one, the notes mirror the run state -/
def Mirrored (m m' : Monitor) (notes : List Note) : Prop :=
  notes.foldlM Note.switched m.isActive = some m'.isActive

theorem Mirrored.of_silent {m m' : Monitor} {notes : List Note} (h : Note.Silent notes)
    (hm : m'.isActive = m.isActive) : Mirrored m m' notes := by
  rw [Mirrored, hm]
  exact Note.foldlM_switched_of_silent h m.isActive

theorem Mirrored.append {m m' m'' : Monitor} {l l' : List Note} (h : Mirrored m m' l) (h' : Mirrored m' m'' l') :
    Mirrored m m'' (l ++ l') := by
  rw [Mirrored, List.foldlM_append, h]
  exact h'

/-- **Stories.** Whatever a monitor does, what it says mirrors its run state. -/
theorem Story.mirrored {m m' : Monitor} {notes : List Note} (h : Story m notes m') : Mirrored m m' notes := by
  induction h with
  | quiet silent active _ => exact .of_silent silent active
  | paused running active _ => simp [Mirrored, running, active, Note.switched]
  | resumed active running _ => simp [Mirrored, running, active, Note.switched]
  | append _ _ first rest => exact first.append rest

theorem tell_mirrored (m : Monitor) (new : Option (UInt16 × Fault)) :
    Mirrored m (m.tell new).val (m.tell new).notes := by
  cases new with
  | none => exact .of_silent Note.silent_nil rfl
  | some p =>
    have hfault : Mirrored m m [.fault p.1 p.2] := rfl
    have hactive : (m.reportFault p.1 p.2).val.isActive = m.isActive := by
      rw [reportFault, publish_val]
      rfl
    exact hfault.append (.of_silent (publish_silent _ _) hactive)

theorem Mirrored.chained : Chained Mirrored :=
  ⟨Story.mirrored, tell_mirrored, Mirrored.append⟩

/-! ## Resumes that take effect -/

theorem resumes_publish (m : Monitor) (event : Event) : Note.resumes (m.publish event).notes = [] :=
  Note.resumes_of_silent (publish_silent m event)

theorem resumes_pauseAt (m : Monitor) (pc : UInt16) : Note.resumes (m.pauseAt pc).notes = [] := by
  simp only [pauseAt, Noted.notes_bind, Note.resumes_append, resumes_publish, List.append_nil]
  rfl

/-- a command notes a resume just when it is one that takes effect -/
theorem resumes_apply (m : Monitor) (pc : UInt16) (cmd : Command) :
    Note.resumes (m.apply pc cmd).notes =
      (Happening.resumed? (.applied cmd pc m.state (m.apply pc cmd).val.state)).toList := by
  cases cmd with
  | setBreakpoint addr => rfl
  | clearBreakpoint addr => rfl
  | pause =>
    simp only [apply]
    split
    · exact resumes_pauseAt m pc
    · rfl
  | resume =>
    by_cases hs : m.state = .running
    · simp [apply, hs, Happening.resumed?, Note.resumes]
    · simp [apply, hs, Happening.resumed?, Note.resumes]
  | step => cases hs : m.state <;> simp [apply, hs, Happening.resumed?, Note.resumes]

theorem resumes_applyAll (pc : UInt16) (cmds : List Command) (m : Monitor) :
    Note.resumes (applyAll pc cmds m).notes = (applications pc cmds m).filterMap Happening.resumed? := by
  induction cmds generalizing m with
  | nil => rfl
  | cons cmd cmds ih =>
    rw [applyAll, Noted.notes_bind, Note.resumes_append, resumes_apply, ih, applications, List.filterMap_cons]
    cases Happening.resumed? (.applied cmd pc m.state (m.apply pc cmd).val.state) <;> rfl

theorem resumes_verdict (m : Monitor) (pc : UInt16) : Note.resumes (m.verdict pc).notes = [] := by
  rcases verdict_cases m pc with ⟨-, hv⟩ | ⟨-, hv⟩ | ⟨-, hv⟩ | ⟨-, hv⟩
  · rw [hv]
    rfl
  · rw [hv, Noted.notes_map]
    exact resumes_pauseAt _ pc
  · rw [hv]
    rfl
  · rw [hv]
    rfl

theorem resumes_permit (m : Monitor) (pc : UInt16) :
    Note.resumes (m.permit pc).notes = (m.drained pc).filterMap Happening.resumed? := by
  rw [permit_notes, Note.resumes_append, resumes_verdict, List.append_nil]
  exact resumes_applyAll pc m.commands { m with commands := [] }

theorem resumes_tell (m : Monitor) (new : Option (UInt16 × Fault)) : Note.resumes (m.tell new).notes = [] := by
  cases new with
  | none => rfl
  | some p => exact resumes_publish m (.fault p.1 p.2)

theorem resumes_halt (m : Monitor) (pc : UInt16) : Note.resumes (m.halt pc).notes = [] := by
  unfold halt
  split
  · rfl
  · exact resumes_pauseAt m pc

end Monitor

end Chip8
