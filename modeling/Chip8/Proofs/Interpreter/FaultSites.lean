/-
Where faults come from. A fault is published with the program counter as it was before its cycle, and that is the
address of the instruction that failed. Three kinds of faults name an address themselves. An opcode that is no
instruction names the one it was fetched from, which is the same. The faults of the stack are raised when the fetch is
over, and name the address after the instruction.

Results:
- `cycle_fault_iff`: a cycle fails with just those faults that the instruction at the program counter fails with;
- `Machine.FailsWith.locates`: how the address that a fault names lies to the instruction;
- `fault_mem_performAll`, `fault_mem_turns`: a fault that is published comes from a turn of the run;
- `published_fault_located`: all of this for runs and main loops.
-/
import Chip8.Proofs.Interpreter.FaultReports

namespace Chip8

/-- the address of an instruction that a fault names -/
def Fault.site? : Fault → Option UInt16
  | invalidOpcode _ addr => some addr
  | stackOverflow pc | stackUnderflow pc => some pc
  | _ => none

theorem Fault.site?_of_ofOperand {f : Fault} (h : f.ofOperand = true) : f.site? = none := by
  cases f with
  | outOfBounds addr => rfl
  | noSuchKey key => rfl
  | _ => cases h

namespace Machine

/-- the instruction at the program counter fails, by the stage at which it does -/
inductive FailsWith {σ : Type} [Input σ] (m : Machine) (dev : σ) (f : Fault) : Prop
  | fetch (failed : m.fetch = .error f)
  | decode {opcode : UInt16} (read : m.memory.readWord m.pc = .ok opcode)
      (unknown : Instruction.decode opcode = none) (fault : f = .invalidOpcode opcode m.pc)
  | execute {opcode : UInt16} {ins : Instruction} (read : m.memory.readWord m.pc = .ok opcode)
      (known : Instruction.decode opcode = some ins) (failed : (execute ins m.skip dev).val.fault = some f)

/-- a fault of the instruction at the program counter names the address `addr` -/
inductive Locates (m : Machine) (addr : UInt16) : Fault → Prop
  | opcode {opcode : UInt16} (read : m.memory.readWord m.pc = .ok opcode)
      (unknown : Instruction.decode opcode = none) (here : addr = m.pc) : Locates m addr (.invalidOpcode opcode addr)
  | overflow {opcode target : UInt16} (read : m.memory.readWord m.pc = .ok opcode)
      (call : Instruction.decode opcode = some (.call target)) (full : m.stack.push addr = none)
      (past : addr.toNat = m.pc.toNat + 2) : Locates m addr (.stackOverflow addr)
  | underflow {opcode : UInt16} (read : m.memory.readWord m.pc = .ok opcode)
      (ret : Instruction.decode opcode = some .ret) (empty : m.stack.pop = none)
      (past : addr.toNat = m.pc.toNat + 2) : Locates m addr (.stackUnderflow addr)

/-- **Named addresses.** When a fault of the instruction at the program counter names an address, it does so in one of
three ways. -/
theorem FailsWith.locates {σ : Type} [Input σ] {m : Machine} {dev : σ} {f : Fault} {addr : UInt16}
    (h : m.FailsWith dev f) (hsite : f.site? = some addr) : m.Locates addr f := by
  cases h with
  | fetch failed =>
    rw [Fault.site?_of_ofOperand (Memory.map_checkRange_fault (eq_error_of_map failed))] at hsite
    cases hsite
  | decode read unknown fault =>
    subst fault
    cases hsite
    exact .opcode read unknown rfl
  | execute read known failed =>
    have hpast : m.skip.pc.toNat = m.pc.toNat + 2 := by
      have hin := Memory.readWord_eq_ok read
      exact toNat_skip_pc (by omega)
    cases execute_raises failed with
    | operand hoperand =>
      rw [Fault.site?_of_ofOperand hoperand] at hsite
      cases hsite
    | overflow full =>
      cases hsite
      exact .overflow read known full hpast
    | underflow empty =>
      cases hsite
      exact .underflow read known empty hpast
    | device _ => cases hsite

/-- the address that a fault names is that of the instruction just when the fault is that it is no instruction -/
theorem Locates.addr_eq_iff {m : Machine} {addr : UInt16} {f : Fault} (h : m.Locates addr f) :
    addr = m.pc ↔ ∃ opcode, f = .invalidOpcode opcode addr := by
  have hpast : addr.toNat = m.pc.toNat + 2 → addr ≠ m.pc := by
    intro hpast heq
    rw [heq] at hpast
    omega
  cases h with
  | opcode read unknown here => exact ⟨fun _ => ⟨_, rfl⟩, fun _ => here⟩
  | overflow read call full past =>
    constructor
    · intro heq
      exact absurd heq (hpast past)
    · rintro ⟨opcode, hf⟩
      cases hf
  | underflow read ret empty past =>
    constructor
    · intro heq
      exact absurd heq (hpast past)
    · rintro ⟨opcode, hf⟩
      cases hf

end Machine

namespace Interpreter

variable {σ δ : Type} [Input σ]

/-! ## Cycles and steps -/

/-- **Faults of a cycle.** It fails as the instruction at the program counter does. -/
theorem cycle_fault_iff (s : Interpreter σ δ) (f : Fault) :
    s.cycle.val.2 = some f ↔ s.machine.FailsWith s.input f := by
  constructor
  · intro h
    rcases cycle_cases s with ⟨f', hf, hc⟩ | ⟨opcode, hf, hd, hc⟩ | ⟨opcode, ins, hf, hd, hc⟩
    · rw [hc] at h
      cases h
      exact .fetch hf
    · rw [hc] at h
      cases h
      exact .decode (Machine.fetch_eq_ok hf).1 hd rfl
    · rw [hc] at h
      exact .execute (Machine.fetch_eq_ok hf).1 hd h
  · intro h
    cases h with
    | fetch failed => simp only [cycle, failed, Noted.val_pure]
    | decode read unknown fault =>
      simp only [cycle, Machine.fetch_of_readWord read, unknown, fault, Noted.val_pure]
    | execute read known failed =>
      simp only [cycle, Machine.fetch_of_readWord read, known, failed, Noted.val_bind, Noted.val_pure]

/-- the step that comes takes this fault, at this address -/
structure FaultsAt (s : Interpreter σ δ) (pc : UInt16) (f : Fault) : Prop where
  here : s.machine.pc = pc
  permitted : s.Permitted
  failed : s.machine.FailsWith s.input f
  recoverable : f.recoverable = true
  /-- when the fault names an address, it is this one or the one after it, by its kind -/
  named : ∀ addr, f.site? = some addr →
    s.machine.Locates addr f ∧ (addr = pc ↔ ∃ opcode, f = .invalidOpcode opcode addr)

theorem FaultsAt.of_stepFault {s : Interpreter σ δ} {pc : UInt16} {f : Fault} (h : s.stepFault = some (pc, f)) :
    s.FaultsAt pc f := by
  have hrecoverable : f.recoverable = true := recoverable_of_stepFault h
  cases hstep : s.step.val.2 with
  | ok ran =>
    rw [stepFault_eq_none_of_ok hstep] at h
    cases h
  | error f' =>
    rw [stepFault_of_error hstep] at h
    obtain ⟨-, hsame⟩ := Option.ite_none_right_eq_some.1 h
    cases hsame
    obtain ⟨hpermitted, hcycle⟩ := (step_error_iff s f).1 hstep
    have hfailed : s.machine.FailsWith s.input f := (cycle_fault_iff s.asked f).1 hcycle
    refine ⟨rfl, hpermitted, hfailed, hrecoverable, ?_⟩
    intro addr hsite
    have hlocates := hfailed.locates hsite
    exact ⟨hlocates, hlocates.addr_eq_iff⟩

/-! ## Runs -/

variable [Display δ]

theorem fault_mem_perform {s : Interpreter σ δ} {a : Action σ δ} {pc : UInt16} {f : Fault}
    (h : .fault pc f ∈ Note.published (s.perform a).notes) :
    a = .turn ∧ ∃ t, s.question .turn = some t ∧ t.FaultsAt pc f := by
  have hmem : (pc, f) ∈ (Note.published (s.perform a).notes).filterMap Event.fault? :=
    List.mem_filterMap.2 ⟨.fault pc f, h, rfl⟩
  rw [(perform_fault s a).2.2, Option.mem_toList] at hmem
  obtain ⟨hfault, -⟩ := Option.filter_eq_some_iff.1 hmem
  cases a with
  | turn =>
    obtain ⟨t, ht, hstep⟩ := Option.bind_eq_some_iff.1 hfault
    exact ⟨rfl, t, ht, .of_stepFault hstep⟩
  | _ => cases hfault

/-- **Runs.** A fault that is published in a run is taken in one of its turns. -/
theorem fault_mem_performAll {s : Interpreter σ δ} {as : List (Action σ δ)} {pc : UInt16} {f : Fault}
    (h : .fault pc f ∈ Note.published (performAll as s).notes) : ∃ before after t,
    as = before ++ .turn :: after ∧ (performAll before s).val.question .turn = some t ∧ t.FaultsAt pc f := by
  induction as generalizing s with
  | nil => cases h
  | cons a as ih =>
    rw [performAll, Noted.notes_bind, Note.published_append, List.mem_append] at h
    rcases h with hfirst | hrest
    · obtain ⟨rfl, t, ht, hfaults⟩ := fault_mem_perform hfirst
      exact ⟨[], as, t, rfl, ht, hfaults⟩
    · obtain ⟨before, after, t, rfl, ht, hfaults⟩ := ih hrest
      exact ⟨a :: before, after, t, rfl, ht, hfaults⟩

/-- **Main loops.** A fault that is published in the turns of a main loop is taken in one that comes after turns which
all went on. -/
theorem fault_mem_turns {s : Interpreter σ δ} {k : Nat} {pc : UInt16} {f : Fault}
    (h : .fault pc f ∈ Note.published (turns k s).notes) : ∃ n u t,
    n < k ∧ (turns n s).val = (u, none) ∧ u.question .turn = some t ∧ t.FaultsAt pc f := by
  induction k generalizing s with
  | zero => cases h
  | succ k ih =>
    rw [turns, Noted.notes_bind, Note.published_append, List.mem_append] at h
    rcases h with hfirst | hrest
    · have hturn : .fault pc f ∈ Note.published (s.perform .turn).notes := by
        rw [perform, Noted.notes_map]
        exact hfirst
      obtain ⟨-, t, ht, hfaults⟩ := fault_mem_perform hturn
      exact ⟨0, s, t, Nat.succ_pos k, rfl, ht, hfaults⟩
    · obtain ⟨next, ending, hnext⟩ : ∃ next ending, s.turn.val = (next, ending) := ⟨_, _, rfl⟩
      rw [hnext] at hrest
      cases ending with
      | some e => cases hrest
      | none =>
        obtain ⟨n, u, t, hn, hu, ht, hfaults⟩ := ih hrest
        exact ⟨n + 1, u, t, Nat.succ_lt_succ hn, (turns_succ_of_none hnext n).trans hu, ht, hfaults⟩

theorem published_mainLoop (s : Interpreter σ δ) :
    Note.published s.mainLoop.notes = Note.published (turns s.limit s).notes := by
  obtain ⟨-, closing, hnotes, hclosing⟩ := mainLoop_eq_performAll s
  rw [hnotes, (turns_eq_performAll s.limit s).2, Note.published_append, Note.published_of_silent hclosing,
    List.append_nil]

/-- **Where faults come from.** Take any run of an interpreter, with whatever the debugger and the world do between its
turns, or a whole main loop. Each fault that is published comes from a turn of it, and the address published with it is
that of the instruction that failed there. When the fault names an address itself, that is the same one just when the
opcode is no instruction; the faults of the stack name the address after the call or the return. -/
theorem published_fault_located (s : Interpreter σ δ) :
    (∀ (as : List (Action σ δ)) (pc : UInt16) (f : Fault), .fault pc f ∈ Note.published (performAll as s).notes →
      ∃ before after t, as = before ++ .turn :: after ∧
        (performAll before s).val.question .turn = some t ∧ t.FaultsAt pc f) ∧
    (∀ (pc : UInt16) (f : Fault), .fault pc f ∈ Note.published s.mainLoop.notes →
      ∃ n u t, n < s.limit ∧ (turns n s).val = (u, none) ∧ u.question .turn = some t ∧ t.FaultsAt pc f) := by
  refine ⟨?_, ?_⟩
  · intro as pc f h
    exact fault_mem_performAll h
  · intro pc f h
    have hturns : .fault pc f ∈ Note.published (turns s.limit s).notes := by
      rwa [← published_mainLoop]
    exact fault_mem_turns hturns

def threeFaults : Interpreter HeldKeys FrameCounter where
  machine := { Machine.fresh .disabled (.ofSeed 0) with
    memory := ⟨Memory.place (Vector.replicate 4096 0) 0x200 [0x00, 0x00, 0x00, 0xEE, 0x22, 0x04]⟩ }
  monitor := .fresh
  input := .ofKeys [] []
  display := .steady
  config := { Config.default with maxCycles := some 19 }
  cycles := 0
  faults := 0
  lastFault := none

theorem published_threeFaults : Note.published threeFaults.mainLoop.notes = [.fault 0x200 (.invalidOpcode 0 0x200),
    .fault 0x202 (.stackUnderflow 0x204), .fault 0x204 (.stackOverflow 0x206)] := by
  decide +kernel

/-- the call that fails is at 0x204, and its fault names 0x206 -/
theorem overflow_located :
    .fault 0x204 (.stackOverflow 0x206) ∈ Note.published threeFaults.mainLoop.notes ∧
    ∃ n u t, n < 19 ∧ (turns n threeFaults).val = (u, none) ∧ u.question .turn = some t ∧
      t.machine.pc = 0x204 ∧ t.machine.Locates 0x206 (.stackOverflow 0x206) := by
  have hpublished : .fault 0x204 (.stackOverflow 0x206) ∈ Note.published threeFaults.mainLoop.notes := by
    rw [published_threeFaults]
    decide
  obtain ⟨-, hloop⟩ := published_fault_located threeFaults
  obtain ⟨n, u, t, hn, hu, ht, hfaults⟩ := hloop 0x204 (.stackOverflow 0x206) hpublished
  obtain ⟨hlocates, -⟩ := hfaults.named 0x206 rfl
  exact ⟨hpublished, n, u, t, hn, hu, ht, hfaults.here, hlocates⟩

/-- **Named addresses differ.** The return that fails is at 0x202, and its fault names 0x204. -/
theorem named_address_differs :
    ¬ ∀ (s : Interpreter HeldKeys FrameCounter) (pc addr : UInt16) (f : Fault),
      .fault pc f ∈ Note.published s.mainLoop.notes → f.site? = some addr → addr = pc := by
  intro h
  have hpublished : .fault 0x202 (.stackUnderflow 0x204) ∈ Note.published threeFaults.mainLoop.notes := by
    rw [published_threeFaults]
    decide
  have hsame : (0x204 : UInt16) = 0x202 := h threeFaults 0x202 0x204 (.stackUnderflow 0x204) hpublished rfl
  exact absurd hsame (by decide)

end Interpreter

end Chip8
