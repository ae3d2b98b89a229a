/-
The call stack as a list of at most sixteen addresses, most recent first. The list takes an address at its front while
it has room, and gives its front back (`StackCall.onList`). The calls on a machine come to the same, through both limits,
and the two keep in step: the list is what `CallStack.toList` sees.

`Bare.pushing` and `Bare.popping` are the two operations step by step on the bare machine, where a slot number that is
out of range and a difference below zero have no outcome. What a step has done stays done when a later step fails, so
that a fault leaves the machine as it was only if nothing was done before it.

Results:
- `run_stackWork`, `runStackWork_of`: step by step, calls come to what they come to on a machine;
- `onMachine_refines`, `runAll_refines`: calls on a machine and on its list;
- `stackWork_error_iff`: the calls that fail change nothing;
- `stack_refines_list`: all of it together, with the depth and the next free slot.
-/
import Chip8.Proofs.BareMachine

namespace Chip8

/-- a call on a stack -/
inductive StackCall where
  | push (addr : UInt16)
  | pop
  deriving DecidableEq, Repr

/-- what a call on a stack answers: the address that is taken off, if one is -/
abbrev StackAnswer : Type :=
  Except Fault (Option UInt16)

/-- calls in a row, by what one of them comes to: the answers in order, and what is left -/
def StackCall.runAll {σ : Type} (call : StackCall → σ → StackAnswer × σ) : List StackCall → σ → List StackAnswer × σ
  | [], s => ([], s)
  | c :: cs, s =>
    let done := call c s
    let rest := runAll call cs done.2
    (done.1 :: rest.1, rest.2)

/-! ## On a list -/

/-- a call on a list with room for sixteen addresses, most recent first; faults name `pc` -/
def StackCall.onList (pc : UInt16) : StackCall → List UInt16 → StackAnswer × List UInt16
  | push addr, l => if l.length < 16 then (.ok none, addr :: l) else (.error (.stackOverflow pc), l)
  | pop, addr :: l => (.ok (some addr), l)
  | pop, [] => (.error (.stackUnderflow pc), [])

/-! ## On a machine -/

/-- a call on the stack of a machine; the machine stays when the call fails -/
def StackCall.onMachine : StackCall → Machine → StackAnswer × Machine
  | push addr, m =>
    match m.push addr with
    | .ok m' => (.ok none, m')
    | .error f => (.error f, m)
  | pop, m =>
    match m.pop with
    | .ok (addr, m') => (.ok (some addr), m')
    | .error f => (.error f, m)

/-! ## Step by step -/

namespace Bare

/-- something done to the bare machine that can fail on the way; what was done until then stays done -/
abbrev Work (α : Type) : Type :=
  ExceptT Fault (StateT Bare Option) α

/-- the difference of two numbers, unless it is below zero -/
def minus (a b : Nat) : Option Nat :=
  if b ≤ a then some (a - b) else none

/-- the next free slot; none when the stack is full -/
def pointer (m : Bare) : Option Nat :=
  minus 15 m.depth

/-- put an address into the next free slot, and count it -/
def pushing (addr : UInt16) : Work Unit := do
  let m ← get
  match m.pointer with
  | none => throw (.stackOverflow m.pc)
  | some slot => do
    let slots ← put m.slots slot addr
    modify fun m => { m with slots := slots }
    modify fun m => { m with depth := m.depth + 1 }

/-- count the most recent address out, and read it where it stands -/
def popping : Work UInt16 := do
  let m ← get
  if m.depth = 0 then throw (.stackUnderflow m.pc)
  else do
    let depth ← minus m.depth 1
    modify fun m => { m with depth := depth }
    let slot ← minus 15 depth
    let addr ← m.slots[slot]?
    pure addr

/-- a call on the stack, step by step -/
def stackWork : StackCall → Work (Option UInt16)
  | .push addr => do
    pushing addr
    pure none
  | .pop => do
    let addr ← popping
    pure (some addr)

/-- calls in a row, step by step; none when one of them has no outcome -/
def runStackWork : List StackCall → Bare → Option (List StackAnswer × Bare)
  | [], m => some ([], m)
  | c :: cs, m => do
    let (answer, m) ← (stackWork c).run.run m
    let (answers, m) ← runStackWork cs m
    some (answer :: answers, m)

section

variable {m : Bare}

/-- an access that has an outcome -/
theorem run_access {α : Type} {a : α} {access : Option α} (h : access = some a) :
    (liftM access : Work α).run.run m = some (.ok a, m) := by
  rw [h]
  rfl

theorem run_get : (get : Work Bare).run.run m = some (.ok m, m) := rfl

theorem run_pushing_of_none (h : m.pointer = none) (addr : UInt16) :
    (pushing addr).run.run m = some (.error (.stackOverflow m.pc), m) := by
  rw [pushing, run_bind_of_ok run_get, h]
  rfl

theorem run_pushing_of_some {slot : Nat} {slots : List UInt16} {addr : UInt16} (h : m.pointer = some slot)
    (hput : put m.slots slot addr = some slots) :
    (pushing addr).run.run m = some (.ok (), { m with slots := slots, depth := m.depth + 1 }) := by
  rw [pushing, run_bind_of_ok run_get, h]
  -- the slot is known now, so that the next step can be seen
  rw [run_bind_of_ok (run_access hput)]
  rfl

theorem run_popping_of_zero (h : m.depth = 0) :
    popping.run.run m = some (.error (.stackUnderflow m.pc), m) := by
  rw [popping, run_bind_of_ok run_get, if_pos h]
  rfl

theorem run_popping_of_ne_zero {depth slot : Nat} {addr : UInt16} (h : m.depth ≠ 0)
    (hdepth : minus m.depth 1 = some depth) (hslot : minus 15 depth = some slot)
    (haddr : m.slots[slot]? = some addr) :
    popping.run.run m = some (.ok addr, { m with depth := depth }) := by
  rw [popping, run_bind_of_ok run_get, if_neg h, run_bind_of_ok (run_access hdepth)]
  have hcounted : (modify fun m => { m with depth := depth } : Work Unit).run.run m =
      some (.ok (), { m with depth := depth }) := rfl
  rw [run_bind_of_ok hcounted, run_bind_of_ok (run_access hslot)]
  exact run_access haddr

end

theorem pointer_of (m : Machine) : (of m).pointer = m.stack.pointer.map Fin.val := by
  unfold pointer minus CallStack.pointer
  by_cases h : m.stack.depth < 16
  · rw [of_depth, if_pos (Nat.le_of_lt_succ h), dif_pos h]
    rfl
  · rw [of_depth, if_neg (by omega), dif_neg h]
    rfl

/-- the next free slot, by the addresses on the stack -/
theorem pointer_eq (m : Machine) : (of m).pointer =
    if m.stack.toList.length < 16 then some (15 - m.stack.toList.length) else none := by
  rw [CallStack.length_toList, pointer, minus, of_depth]
  by_cases h : m.stack.depth < 16
  · rw [if_pos (Nat.le_of_lt_succ h), if_pos h]
  · rw [if_neg (by omega), if_neg h]

/-- **One call, step by step.** It has an outcome, the one that it has on the machine. -/
theorem run_stackWork (c : StackCall) (m : Machine) :
    (stackWork c).run.run (of m) = some ((c.onMachine m).1, of (c.onMachine m).2) := by
  have hle := m.stack.depth_le
  have hslots : (of m).slots = m.stack.slots.toList := rfl
  cases c with
  | push addr =>
    by_cases h : m.stack.depth < 16
    · have hpointer : (of m).pointer = some (15 - m.stack.depth) := if_pos (by rw [of_depth]; omega)
      have hput : put (of m).slots (15 - m.stack.depth) addr =
          some (m.stack.slots.set (15 - m.stack.depth) addr).toList := by
        rw [put_of_lt (by rw [hslots, Vector.length_toList]; omega), hslots, Vector.toList_set]
      rw [stackWork, run_bind_of_ok (run_pushing_of_some hpointer hput), StackCall.onMachine, Machine.push,
        CallStack.push, dif_pos h]
      rfl
    · have hpointer : (of m).pointer = none := if_neg (by rw [of_depth]; omega)
      rw [stackWork, run_bind_of_error (run_pushing_of_none hpointer addr), StackCall.onMachine, Machine.push,
        CallStack.push, dif_neg h]
      rfl
  | pop =>
    by_cases h : 0 < m.stack.depth
    · have hdepth : minus (of m).depth 1 = some (m.stack.depth - 1) := if_pos h
      have hslot : minus 15 (m.stack.depth - 1) = some (16 - m.stack.depth) := by
        rw [minus, if_pos (by omega)]
        congr 1
        omega
      have haddr : (of m).slots[16 - m.stack.depth]? = some m.stack.slots[16 - m.stack.depth] := by
        rw [hslots, Vector.getElem?_toList]
        exact Vector.getElem?_eq_getElem _
      rw [stackWork, run_bind_of_ok (run_popping_of_ne_zero (Nat.pos_iff_ne_zero.1 h) hdepth hslot haddr),
        StackCall.onMachine, Machine.pop, CallStack.pop, dif_pos h]
      rfl
    · have hzero : (of m).depth = 0 := Nat.eq_zero_of_not_pos h
      rw [stackWork, run_bind_of_error (run_popping_of_zero hzero), StackCall.onMachine, Machine.pop, CallStack.pop,
        dif_neg h]
      rfl

/-- **Calls, step by step.** No index is out of range and no difference is below zero, however the calls come. -/
theorem runStackWork_of (cs : List StackCall) (m : Machine) :
    runStackWork cs (of m) =
      some ((StackCall.runAll StackCall.onMachine cs m).1, of (StackCall.runAll StackCall.onMachine cs m).2) := by
  induction cs generalizing m with
  | nil => rfl
  | cons c cs ih =>
    rw [runStackWork, run_stackWork]
    show (runStackWork cs (of (c.onMachine m).2)).bind _ = _
    rw [ih]
    rfl

end Bare

namespace StackCall

/-! ## The list and the machine in step -/

/-- **One call.** It answers as it does on the list, leaves the list that it leaves there, and changes nothing but the
stack. -/
theorem onMachine_refines (c : StackCall) (m : Machine) :
    ((c.onMachine m).1, (c.onMachine m).2.stack.toList) = c.onList m.pc m.stack.toList ∧
      ∃ stack, (c.onMachine m).2 = { m with stack := stack } := by
  cases c with
  | push addr =>
    rw [onMachine, onList, CallStack.length_toList, Machine.push]
    cases h : m.stack.push addr with
    | some stack =>
      have hroom : m.stack.depth < 16 := by
        refine Nat.lt_of_not_le fun hfull => ?_
        have hnone := (CallStack.push_eq_none_iff m.stack addr).2 (by
          rw [CallStack.length_toList]
          exact Nat.le_antisymm m.stack.depth_le hfull)
        rw [h] at hnone
        cases hnone
      rw [if_pos hroom, ← CallStack.toList_push h]
      exact ⟨rfl, stack, rfl⟩
    | none =>
      have hfull := (CallStack.push_eq_none_iff m.stack addr).1 h
      rw [CallStack.length_toList] at hfull
      rw [if_neg (by omega)]
      exact ⟨rfl, m.stack, rfl⟩
  | pop =>
    rw [onMachine, Machine.pop]
    cases h : m.stack.pop with
    | some taken =>
      obtain ⟨addr, stack⟩ := taken
      rw [CallStack.toList_pop h]
      exact ⟨rfl, stack, rfl⟩
    | none =>
      rw [(CallStack.pop_eq_none_iff m.stack).1 h]
      exact ⟨rfl, m.stack, rfl⟩

/-- **Calls in a row.** -/
theorem runAll_refines (cs : List StackCall) (m : Machine) :
    ((runAll onMachine cs m).1, (runAll onMachine cs m).2.stack.toList) = runAll (onList m.pc) cs m.stack.toList ∧
      ∃ stack, (runAll onMachine cs m).2 = { m with stack := stack } := by
  induction cs generalizing m with
  | nil => exact ⟨rfl, m.stack, rfl⟩
  | cons c cs ih =>
    obtain ⟨hfirst, stack, hframe⟩ := onMachine_refines c m
    obtain ⟨hrest, stack', hframe'⟩ := ih (c.onMachine m).2
    have hpc : (c.onMachine m).2.pc = m.pc := by rw [hframe]
    rw [hpc] at hrest
    refine ⟨?_, stack', ?_⟩
    · rw [runAll, runAll, ← hfirst, ← hrest]
    · show (runAll onMachine cs (c.onMachine m).2).2 = _
      rw [hframe', hframe]

/-- which calls fail on a list -/
theorem onList_error_iff {pc : UInt16} {c : StackCall} {l : List UInt16} {f : Fault} :
    (c.onList pc l).1 = .error f ↔
      ((∃ addr, c = .push addr) ∧ 16 ≤ l.length ∧ f = .stackOverflow pc) ∨
        (c = .pop ∧ l = [] ∧ f = .stackUnderflow pc) := by
  cases c with
  | push addr =>
    by_cases h : l.length < 16
    · simp [onList, h, Nat.not_le.2 h]
    · simp [onList, h, Nat.le_of_not_lt h, eq_comm]
  | pop =>
    cases l with
    | nil => simp [onList, eq_comm]
    | cons addr l => simp [onList]

/-- a call that fails leaves the machine -/
theorem onMachine_of_error {c : StackCall} {m : Machine} {f : Fault} (h : (c.onMachine m).1 = .error f) :
    (c.onMachine m).2 = m := by
  cases c with
  | push addr =>
    rw [onMachine] at h ⊢
    cases hp : m.push addr with
    | ok m' =>
      rw [hp] at h
      cases h
    | error f' => rfl
  | pop =>
    rw [onMachine] at h ⊢
    cases hp : m.pop with
    | ok taken =>
      rw [hp] at h
      cases h
    | error f' => rfl

/-- **Calls that fail.** Step by step too, a call fails just when it fails on the list, and nothing has changed then. -/
theorem stackWork_error_iff {c : StackCall} {m : Machine} {f : Fault} {after : Bare} :
    (Bare.stackWork c).run.run (Bare.of m) = some (.error f, after) ↔
      after = Bare.of m ∧ (c.onList m.pc m.stack.toList).1 = .error f := by
  have hlist : (c.onMachine m).1 = (c.onList m.pc m.stack.toList).1 := congrArg Prod.fst (c.onMachine_refines m).1
  rw [Bare.run_stackWork, Option.some.injEq, Prod.mk.injEq, ← hlist]
  constructor
  · rintro ⟨hf, rfl⟩
    exact ⟨by rw [onMachine_of_error hf], hf⟩
  · rintro ⟨rfl, hf⟩
    exact ⟨hf, by rw [onMachine_of_error hf]⟩

/-- **The stack is a list.** Take any machine and any calls on its stack.
- Step by step each of them has an outcome: no slot number is out of range and no difference is below zero.
- They answer as they do on the list of the addresses on the stack, and the stack holds the list that is left. It has
  at most sixteen addresses. Nothing but the stack is different.
- The depth is the length of the list, and the next free slot is the fifteenth less that many, as long as there is one.
- The calls that fail are a push on sixteen addresses and a pop on none. They leave everything as it is, free slots
  included. -/
theorem stack_refines_list (m : Machine) (cs : List StackCall) :
    let listed := runAll (onList m.pc) cs m.stack.toList
    let run := runAll onMachine cs m
    let slot := if listed.2.length < 16 then some (15 - listed.2.length) else none
    Bare.runStackWork cs (Bare.of m) = some (listed.1, Bare.of run.2) ∧
    (run.1 = listed.1 ∧ run.2.stack.toList = listed.2 ∧ listed.2.length ≤ 16 ∧
      ∃ stack, run.2 = { m with stack := stack }) ∧
    run.2.stack.depth = listed.2.length ∧
    ((Bare.of run.2).pointer = slot ∧ run.2.stack.pointer.map Fin.val = slot) ∧
    ∀ c f after, (Bare.stackWork c).run.run (Bare.of run.2) = some (.error f, after) ↔
      after = Bare.of run.2 ∧
        (((∃ addr, c = .push addr) ∧ listed.2.length = 16 ∧ f = .stackOverflow m.pc) ∨
          (c = .pop ∧ listed.2 = [] ∧ f = .stackUnderflow m.pc)) := by
  intro listed run slot
  obtain ⟨hrefines, stack, hframe⟩ := runAll_refines cs m
  obtain ⟨hanswers, hlist⟩ := Prod.mk.inj hrefines
  have hdepth : listed.2.length = run.2.stack.depth := by rw [← CallStack.length_toList, hlist]
  have hroom : listed.2.length ≤ 16 := hdepth ▸ run.2.stack.depth_le
  have hpointer := Bare.pointer_eq run.2
  rw [hlist] at hpointer
  refine ⟨?_, ⟨hanswers, hlist, hroom, stack, hframe⟩, hdepth.symm, ⟨hpointer, ?_⟩, ?_⟩
  · rw [Bare.runStackWork_of, hanswers]
  · rw [← Bare.pointer_of, hpointer]
  · intro c f after
    have hpc : run.2.pc = m.pc := by simp only [run, hframe]
    have hfull : 16 ≤ listed.2.length ↔ listed.2.length = 16 := ⟨Nat.le_antisymm hroom, Nat.le_of_eq ∘ Eq.symm⟩
    rw [stackWork_error_iff, onList_error_iff, hlist, hpc, ← hfull]

/-- Seventeen addresses go on the empty stack of a machine, and then seventeen are asked back: the last one does not go
on, the other ones come back in reverse, and then there is none left. -/
theorem both_limits :
    let m := Machine.fresh .disabled (.ofSeed 0)
    let addrs := (List.range 17).map Nat.toUInt16
    let run := runAll onMachine (addrs.map .push ++ List.replicate 17 .pop) m
    run.1 = List.replicate 16 (.ok none) ++ [.error (.stackOverflow 0x200)] ++
      (addrs.take 16).reverse.map (fun addr => .ok (some addr)) ++ [.error (.stackUnderflow 0x200)] ∧
      run.2.stack.depth = 0 := by
  intro m addrs
  obtain ⟨-, ⟨hanswers, -⟩, hdepth, -⟩ := stack_refines_list m (addrs.map .push ++ List.replicate 17 .pop)
  have hempty : m.stack.toList = [] := rfl
  have hpc : m.pc = 0x200 := rfl
  have hlisted : runAll (onList 0x200) (addrs.map .push ++ List.replicate 17 .pop) [] =
      (List.replicate 16 (.ok none) ++ [.error (.stackOverflow 0x200)] ++
        (addrs.take 16).reverse.map (fun addr => .ok (some addr)) ++ [.error (.stackUnderflow 0x200)], []) := rfl
  rw [hempty, hpc, hlisted] at hanswers hdepth
  dsimp only
  exact ⟨hanswers, hdepth⟩

end StackCall

end Chip8
