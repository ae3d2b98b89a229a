/-
Repeats are found by comparing messages, and that merges no two faults. A recoverable fault can be read off its message,
so the message that is kept, with its address, stands for the fault (`Remembers`), and a fault is taken for a repeat
only if it is the one that is kept, at the same address. Faults that end the run are not kept and not compared.

Results:
- `message_eq_iff`: recoverable faults are the same just when their messages are;
- `takeFault_remembers`: what is kept and published when one fault is taken;
- `performAll_remembers`, `published_turn_of_faultOf`: what is kept after any run, and what a turn then publishes;
- `repeat_iff_same_fault`: all of it together.
-/
import Chip8.Proofs.Interpreter.FaultReports

namespace Chip8

/-- **Messages are as good as faults.** Recoverable faults are the same just when their messages are. -/
theorem Fault.message_eq_iff {f g : Fault} (hf : f.recoverable = true) (hg : g.recoverable = true) :
    f.message = g.message ↔ f = g :=
  ⟨eq_of_message_eq hf hg, congrArg message⟩

namespace Interpreter

open Monitor

variable {σ δ : Type}

/-! ## One fault -/

theorem filterMap_fault?_halt (m : Monitor) (pc : UInt16) :
    (Note.published (m.halt pc).notes).filterMap Event.fault? = [] := by
  rw [halt]
  split
  · rfl
  · rw [pauseAt, Noted.notes_bind, Note.published_append, Note.published_of_silent (publish_silent _ _)]
    rfl

theorem filterMap_fault?_report (s : Interpreter σ δ) (pc : UInt16) (f : Fault) :
    (Note.published (s.report pc f).notes).filterMap Event.fault? = if s.isRepeat pc f then [] else [(pc, f)] := by
  rw [(report_tells s pc f).2, published_tell, Event.filterMap_fault?_map_ofFault]
  cases s.isRepeat pc f <;> rfl

/-- **One fault.** A recoverable fault is kept from now on, and published unless it was kept before; any other fault
changes nothing that is kept. -/
theorem takeFault_remembers {s : Interpreter σ δ} {last : Option (UInt16 × Fault)} (h : s.Remembers last)
    (p : UInt16 × Fault) :
    (s.takeFault p.1 p.2).val.1.Remembers (if p.2.recoverable then some p else last) ∧
      (Note.published (s.takeFault p.1 p.2).notes).filterMap Event.fault? =
        if p.2.recoverable ∧ last ≠ some p then [p] else [] := by
  cases hp : p.2.recoverable with
  | false =>
    obtain ⟨hval, hnotes⟩ := @takeFault_of_fatal _ _ s p.1 p.2 hp
    rw [hval, hnotes]
    exact ⟨h, rfl⟩
  | true =>
    obtain ⟨hval, hnotes⟩ := @takeFault_of_recoverable _ _ s p.1 p.2 hp
    refine ⟨⟨?_, ?_⟩, ?_⟩
    · rintro q ⟨⟩
      exact hp
    · have hreport := (report_tells { s with faults := s.faults + 1 } p.1 p.2).1
      rw [hval, hreport]
      split <;> rfl
    · have hcounted : { s with faults := s.faults + 1 }.isRepeat p.1 p.2 = true ↔ last = some p := h.isRepeat_iff hp
      have hhalt : (Note.published (if s.machine.pc = p.1 then
          .stuck p.1 :: (({ s with faults := s.faults + 1 }.report p.1 p.2).val.monitor.halt p.1).notes
          else [])).filterMap Event.fault? = [] := by
        split
        · exact filterMap_fault?_halt _ _
        · rfl
      rw [hnotes, Note.published_append, List.filterMap_append, hhalt, List.append_nil, filterMap_fault?_report,
        if_congr hcounted rfl rfl]
      by_cases hlast : last = some p
      · rw [if_pos hlast, if_neg fun e => e.2 hlast]
      · rw [if_neg hlast, if_pos ⟨rfl, hlast⟩]

/-! ## Runs -/

variable [Input σ] [Display δ]

/-- **Runs.** What is kept after a run of a new interpreter is the last recoverable fault of its turns. -/
theorem performAll_remembers (m : Machine) (mon : Monitor) (input : σ) (display : δ) (config : Config)
    (as : List (Action σ δ)) :
    let start := (create m mon input display config).val
    (performAll as start).val.Remembers (faultsTaken as start).getLast? := by
  intro start
  have hstart : start.Reported [] [] := ⟨rfl, rfl, rfl⟩
  exact (performAll_reported hstart (by simp) as).remembers fun p => recoverable_of_mem_faultsTaken

/-- a turn that takes a fault publishes it, unless the fault is kept already, and publishes no other one -/
theorem published_turn_of_faultOf {s : Interpreter σ δ} {last : Option (UInt16 × Fault)} (h : s.Remembers last)
    {p : UInt16 × Fault} (hp : s.faultOf .turn = some p) :
    (Note.published s.turn.notes).filterMap Event.fault? = if last = some p then [] else [p] := by
  obtain ⟨-, -, hpublished⟩ := perform_fault s .turn
  rw [perform, Noted.notes_map, hp, h.toList_filter_repeat (recoverable_of_faultOf hp)] at hpublished
  exact hpublished

/-- **A repeat is the same fault.** Messages of recoverable faults are equal only if the faults are, and so:
- a recoverable fault is taken for a repeat just when the fault that is kept is the same one, at the same address;
- taking it, the interpreter keeps it, and publishes it unless it is a repeat. A fault that ends the run is not kept, nor
  published;
- after any run of a new interpreter, what is kept is the last recoverable fault of its turns, and a turn that takes a
  fault publishes it, and no other one, unless it is that one. -/
theorem repeat_iff_same_fault :
    (∀ f g : Fault, f.recoverable = true → g.recoverable = true → (f.message = g.message ↔ f = g)) ∧
    (∀ (s : Interpreter σ δ) (last : Option (UInt16 × Fault)), s.Remembers last → ∀ p : UInt16 × Fault,
      let taken := s.takeFault p.1 p.2
      (p.2.recoverable = true → (s.isRepeat p.1 p.2 = true ↔ last = some p)) ∧
      taken.val.1.Remembers (if p.2.recoverable then some p else last) ∧
      (Note.published taken.notes).filterMap Event.fault? = if p.2.recoverable ∧ last ≠ some p then [p] else []) ∧
    ∀ (m : Machine) (mon : Monitor) (input : σ) (display : δ) (config : Config) (as : List (Action σ δ)),
      let start := (create m mon input display config).val
      let s := (performAll as start).val
      let last := (faultsTaken as start).getLast?
      s.Remembers last ∧
      ∀ p, s.faultOf .turn = some p →
        (Note.published s.turn.notes).filterMap Event.fault? = if last = some p then [] else [p] := by
  refine ⟨fun f g => Fault.message_eq_iff, ?_, ?_⟩
  · intro s last hlast p
    exact ⟨hlast.isRepeat_iff, takeFault_remembers hlast p⟩
  · intro m mon input display config as start s last
    have hlast : s.Remembers last := performAll_remembers m mon input display config as
    exact ⟨hlast, fun p => published_turn_of_faultOf hlast⟩

/-- An address outside of memory, noted at 0x200: one with a digit more, the register and the instruction of the same
number, and the same fault two bytes on are new; only the fault itself is a repeat. In a run, the second step that
cannot fetch at 0x1000 publishes nothing, and the bad opcode after it is published. -/
theorem near_misses_are_new :
    let start := (create (.fresh .disabled (.ofSeed 0)) Monitor.fresh.subscribe (HeldKeys.ofKeys [] [])
      FrameCounter.steady pausedConfig).val
    let s := (start.takeFault 0x200 (.outOfBounds 0x1000)).val.1
    (s.isRepeat 0x200 (.outOfBounds 0x1000) = true ∧
      ∀ p ∈ [((0x200 : UInt16), Fault.outOfBounds 0x10000), (0x200, .noSuchRegister 0x1000),
        (0x200, .invalidOpcode 0x1000 0x200), (0x202, .outOfBounds 0x1000)], s.isRepeat p.1 p.2 = false) ∧
    (Note.published (performAll (faultyRun.take 5) start).val.turn.notes).filterMap Event.fault? = [] ∧
    (Note.published (performAll (faultyRun.take 8) start).val.turn.notes).filterMap Event.fault? =
      [(0x200, .invalidOpcode 0 0x200)] := by
  intro start s
  obtain ⟨-, htake, hrun⟩ := repeat_iff_same_fault (σ := HeldKeys) (δ := FrameCounter)
  have hstart : start.Remembers none := ⟨by simp, rfl⟩
  obtain ⟨-, hs, -⟩ := htake start none hstart (0x200, .outOfBounds 0x1000)
  have hturn : ∀ n p, (performAll (faultyRun.take n) start).val.faultOf .turn = some p →
      (Note.published (performAll (faultyRun.take n) start).val.turn.notes).filterMap Event.fault? =
        if (faultsTaken (faultyRun.take n) start).getLast? = some p then [] else [p] :=
    fun n => (hrun _ _ _ _ _ (faultyRun.take n)).2
  refine ⟨⟨((htake s _ hs (0x200, .outOfBounds 0x1000)).1 rfl).2 rfl, ?_⟩, ?_, ?_⟩
  · intro p hp
    have hmiss : p.2.recoverable = true ∧ (0x200, .outOfBounds 0x1000) ≠ p := by
      revert p
      decide
    exact Bool.eq_false_iff.2 fun h => hmiss.2 (Option.some.inj (((htake s _ hs p).1 hmiss.1).1 h))
  · exact (hturn 5 (0x1000, .outOfBounds 0x1000) (by decide +kernel)).trans (if_pos (by decide +kernel))
  · exact (hturn 8 (0x200, .invalidOpcode 0 0x200) (by decide +kernel)).trans (if_neg (by decide +kernel))

end Interpreter

end Chip8
