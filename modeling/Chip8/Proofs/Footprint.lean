/-
What an instruction may change. A machine with its input device is made of `Piece`s: registers, bytes of memory, and the
single things such as the program counter or the keypad. `footprint` lists, for each instruction on a given machine, the
pieces that it may leave different, whether it ends well or in a fault. The keypad is in no list, and what is there of
memory are bytes from I on, counted without wrapping around and never outside memory.

Results:
- `Memory.ext_byteAt`, `Machine.registers_ext`: bytes and registers are all there is of memory and registers;
- `Piece.eq_of_same`: the pieces are all there is;
- `mem_block`, `byte_mem_footprint`: which bytes a footprint can hold;
- `timer_mem_footprint`, `screen_mem_footprint`: which instructions have the timers or the screen in theirs;
- `execute_same`: an instruction leaves every other piece as it was;
- `opcode_changes_within_footprint`: the same of all opcodes that stand for an instruction.
-/
import Chip8.Proofs.BlockTransfer
import Chip8.Proofs.Flow

namespace Chip8

attribute [ext] Timers Machine

/-- memories with the same bytes are the same -/
theorem Memory.ext_byteAt {m m' : Memory} (h : ∀ a < size, m.byteAt a = m'.byteAt a) : m = m' := by
  have hbytes : m.bytes = m'.bytes := by
    apply Vector.ext
    intro a ha
    simpa [byteAt, ha] using h a ha
  exact congrArg Memory.mk hbytes

theorem Machine.registers_ext {m m' : Machine} (h : ∀ r, m.getV r = m'.getV r) : m.v = m'.v :=
  Vector.ext fun r hr => h ⟨r, hr⟩

/-! ## Pieces -/

/-- a piece of a machine or of what it is attached to -/
inductive Piece where
  | register (r : Register)
  /-- the byte at an address of memory -/
  | byte (addr : Nat)
  /-- the address register I -/
  | index
  /-- the program counter -/
  | counter
  | stack
  | delay
  | sound
  | keypad
  | screen
  /-- whether the screen has to be shown -/
  | redraw
  | random
  /-- the input device -/
  | input
  deriving DecidableEq, Repr

namespace Piece

variable {σ : Type}

/-- a piece is the same on two machines with their input devices -/
def Same (m : Machine) (dev : σ) (m' : Machine) (dev' : σ) : Piece → Prop
  | register r => m'.getV r = m.getV r
  | byte addr => m'.memory.byteAt addr = m.memory.byteAt addr
  | index => m'.i = m.i
  | counter => m'.pc = m.pc
  | stack => m'.stack = m.stack
  | delay => m'.timers.delay = m.timers.delay
  | sound => m'.timers.sound = m.timers.sound
  | keypad => m'.keypad = m.keypad
  | screen => m'.screen = m.screen
  | redraw => m'.redraw = m.redraw
  | random => m'.random = m.random
  | input => dev' = dev

theorem Same.refl (m : Machine) (dev : σ) (p : Piece) : p.Same m dev m dev := by
  cases p <;> rfl

theorem Same.trans {p : Piece} {m m' m'' : Machine} {dev dev' dev'' : σ} (h : p.Same m dev m' dev')
    (h' : p.Same m' dev' m'' dev'') : p.Same m dev m'' dev'' := by
  cases p <;> exact Eq.trans h' h

/-- **The pieces are all there is.** Where every piece is the same, the machines are, and so are the devices. -/
theorem eq_of_same {m m' : Machine} {dev dev' : σ} (h : ∀ p : Piece, p.Same m dev m' dev') : m' = m ∧ dev' = dev := by
  have hv : m'.v = m.v := Machine.registers_ext fun r => h (register r)
  have hmemory : m'.memory = m.memory := Memory.ext_byteAt fun a _ => h (byte a)
  have htimers : m'.timers = m.timers := Timers.ext (h delay) (h sound)
  exact ⟨Machine.ext hmemory hv (h index) (h counter) (h stack) htimers (h keypad) (h screen) (h redraw) (h random),
    h input⟩

/-! ## Changing one piece -/

section
variable {p : Piece} (m : Machine) (dev : σ)

theorem same_setV {x : Register} (h : p ≠ register x) (b : UInt8) : p.Same m dev (m.setV x b) dev := by
  cases p with
  | register r => exact (m.getV_setV x r b).trans (if_neg fun e => h (congrArg register e))
  | _ => rfl

theorem same_index (h : p ≠ index) (addr : UInt16) : p.Same m dev { m with i := addr } dev := by
  cases p with
  | index => exact absurd rfl h
  | _ => rfl

theorem same_jump (h : p ≠ counter) (addr : UInt16) : p.Same m dev (m.jump addr) dev := by
  cases p with
  | counter => exact absurd rfl h
  | _ => rfl

theorem same_skipIf (h : p ≠ counter) (cond : Bool) : p.Same m dev (m.skipIf cond) dev := by
  cases cond with
  | false => exact .refl m dev p
  | true => exact same_jump m dev h _

theorem same_stack (h : p ≠ stack) (s : CallStack) : p.Same m dev { m with stack := s } dev := by
  cases p with
  | stack => exact absurd rfl h
  | _ => rfl

theorem same_screen (hs : p ≠ screen) (hr : p ≠ redraw) (s : Screen) (changed : Bool) :
    p.Same m dev { m with screen := s, redraw := changed } dev := by
  cases p with
  | screen => exact absurd rfl hs
  | redraw => exact absurd rfl hr
  | _ => rfl

theorem same_random (h : p ≠ random) (g : Generator) : p.Same m dev { m with random := g } dev := by
  cases p with
  | random => exact absurd rfl h
  | _ => rfl

theorem same_delay (h : p ≠ delay) (t : Countdown) :
    p.Same m dev { m with timers := { m.timers with delay := t } } dev := by
  cases p with
  | delay => exact absurd rfl h
  | _ => rfl

theorem same_sound (h : p ≠ sound) (t : Countdown) :
    p.Same m dev { m with timers := { m.timers with sound := t } } dev := by
  cases p with
  | sound => exact absurd rfl h
  | _ => rfl

theorem same_input (h : p ≠ input) (dev' : σ) : p.Same m dev m dev' := by
  cases p with
  | input => exact absurd rfl h
  | _ => rfl

theorem same_memory {memory : Memory} (h : ∀ addr, p = byte addr → memory.byteAt addr = m.memory.byteAt addr) :
    p.Same m dev { m with memory := memory } dev := by
  cases p with
  | byte addr => exact h addr rfl
  | _ => rfl

theorem same_registers {m' : Machine} (hframe : ∃ v, m' = { m with v := v })
    (h : ∀ r, p = register r → m'.getV r = m.getV r) : p.Same m dev m' dev := by
  obtain ⟨v, rfl⟩ := hframe
  cases p with
  | register r => exact h r rfl
  | _ => rfl

end

end Piece

/-! ## Footprints -/

/-- the bytes of memory among the `n` from I on -/
def Machine.block (m : Machine) (n : Nat) : List Piece :=
  (((List.range n).map (m.i.toNat + ·)).filter (· < Memory.size)).map .byte

theorem Machine.mem_block {m : Machine} {n addr : Nat} :
    .byte addr ∈ m.block n ↔ m.i.toNat ≤ addr ∧ addr < m.i.toNat + n ∧ addr < Memory.size := by
  simp only [block, List.mem_map, List.mem_filter, List.mem_range, Piece.byte.injEq, exists_eq_right, decide_eq_true_eq]
  constructor
  · rintro ⟨⟨k, hk, rfl⟩, hlt⟩
    omega
  · rintro ⟨hle, hlt, hsize⟩
    exact ⟨⟨addr - m.i.toNat, by omega, by omega⟩, hsize⟩

/-- the pieces that an instruction may change when it is carried out on a machine -/
def Instruction.footprint {σ : Type} [Input σ] (m : Machine) (dev : σ) : Instruction → List Piece
  | .clear => [.screen, .redraw]
  | .draw _ _ _ => [.register Machine.flag, .screen, .redraw]
  | .ret | .call _ => [.counter, .stack]
  | .jump _ | .jumpOffset _ => [.counter]
  | .skipEqByte _ _ | .skipNeByte _ _ | .skipEq _ _ | .skipNe _ _ | .skipPressed _ | .skipReleased _ => [.counter]
  | .loadByte x _ | .addByte x _ | .copy x _ | .or x _ | .and x _ | .xor x _ | .readDelay x => [.register x]
  | .add x _ | .sub x _ | .shiftRight x | .subFrom x _ | .shiftLeft x => [.register x, .register Machine.flag]
  | .random x _ => [.register x, .random]
  | .loadIndex _ | .addIndex _ | .glyph _ => [.index]
  | .setDelay _ => [.delay]
  | .setSound _ => [.sound]
  | .decimal _ => m.block 3
  | .store x => m.block (x.val + 1)
  | .load x => (Machine.upTo x).map .register
  | .awaitKey x =>
    match (Input.await dev).result with
    -- the user quits, and the program counter goes back
    | .ok none => [.counter, .input]
    | _ => [.register x, .input]

namespace Piece

theorem ne_of_not_mem_singleton {p a : Piece} (h : p ∉ [a]) : p ≠ a := fun e => h (List.mem_singleton.2 e)

theorem ne_of_not_mem_pair {p a b : Piece} (h : p ∉ [a, b]) : p ≠ a ∧ p ≠ b := by
  simpa using h

variable {σ : Type} {p : Piece} (m : Machine) (dev : σ)

theorem same_returnFrom (h : p ∉ [counter, stack]) : p.Same m dev m.returnFrom.1 dev := by
  obtain ⟨hc, hs⟩ := ne_of_not_mem_pair h
  unfold Machine.returnFrom Machine.pop
  cases m.stack.pop with
  | none => exact .refl m dev p
  | some r => exact (same_stack m dev hs r.2).trans (same_jump _ dev hc r.1)

theorem same_callTo (h : p ∉ [counter, stack]) (addr : UInt16) : p.Same m dev (m.callTo addr).1 dev := by
  obtain ⟨hc, hs⟩ := ne_of_not_mem_pair h
  unfold Machine.callTo Machine.push
  cases m.stack.push m.pc with
  | none => exact .refl m dev p
  | some s => exact (same_stack m dev hs s).trans (same_jump _ dev hc addr)

theorem same_skipOnKey (h : p ≠ counter) (x : Register) (pressed : Bool) :
    p.Same m dev (m.skipOnKey x pressed).1 dev := by
  unfold Machine.skipOnKey
  cases m.keypad.isPressed (m.getV x) with
  | error f => exact .refl m dev p
  | ok down => exact same_skipIf m dev h _

theorem same_setWithFlag {x : Register} (h : p ∉ [register x, register Machine.flag]) (result flagged : UInt8) :
    p.Same m dev (m.setWithFlag x result flagged) dev := by
  obtain ⟨hx, hf⟩ := ne_of_not_mem_pair h
  exact (same_setV m dev hx result).trans (same_setV _ dev hf flagged)

theorem same_drawAt (h : p ∉ [register Machine.flag, screen, redraw]) (x y : Register) (rows : Nat) :
    p.Same m dev (m.drawAt x y rows).1 dev := by
  have hf : p ≠ register Machine.flag := List.ne_of_not_mem_cons h
  obtain ⟨hs, hr⟩ := ne_of_not_mem_pair (List.not_mem_of_not_mem_cons h)
  have hcleared : p.Same m dev (m.setV Machine.flag 0) dev := same_setV m dev hf 0
  unfold Machine.drawAt
  cases hd : (m.setV Machine.flag 0).draw (m.getV x) (m.getV y) rows with
  | error f =>
    simp only [hd]
    exact hcleared
  | ok drawn =>
    obtain ⟨s, e⟩ := Machine.draw_frame hd
    simp only [hd, e]
    exact (hcleared.trans (same_screen _ dev hs hr s true)).trans (same_setV _ dev hf _)

theorem same_storeDecimal (h : p ∉ m.block 3) (x : Register) : p.Same m dev (m.storeDecimal x).1 dev := by
  unfold Machine.storeDecimal
  cases hw : m.withMemory (m.memory.write m.i (Bcd.unpack (Bcd.ofByte (m.getV x)))) with
  | error f => exact .refl m dev p
  | ok m' =>
    obtain ⟨memory, hwrite, rfl⟩ := Machine.withMemory_eq_ok hw
    refine same_memory m dev fun addr hp => ?_
    subst hp
    rw [Machine.mem_block] at h
    refine (Memory.byteAt_write hwrite addr).trans (if_neg fun hin => h ?_)
    have hend := (Memory.write_eq_ok_iff.1 hwrite).1.2
    exact ⟨hin.1, hin.2, Nat.lt_of_lt_of_le hin.2 hend⟩

theorem same_store (x : Register) (h : p ∉ m.block (x.val + 1)) :
    p.Same m dev (m.storeRegisters (Machine.upTo x)).1 dev := by
  have hbytes := m.byteAt_storeRegisters x
  obtain ⟨memory, hframe⟩ := m.storeRegisters_frame (Machine.upTo x)
  rw [hframe] at hbytes ⊢
  refine same_memory m dev fun addr hp => ?_
  subst hp
  rw [Machine.mem_block] at h
  refine (hbytes addr).trans (if_neg fun hin => h ?_)
  unfold Machine.room at hin
  omega

theorem same_load (x : Register) (h : p ∉ (Machine.upTo x).map register) :
    p.Same m dev (m.loadRegisters (Machine.upTo x)).1 dev := by
  refine same_registers m dev (m.loadRegisters_frame (Machine.upTo x)) fun r hp => ?_
  subst hp
  refine (m.getV_loadRegisters x r).trans (if_neg fun hr => h (List.mem_map_of_mem ?_))
  exact Machine.mem_lowest.2 (Nat.lt_of_lt_of_le hr (Nat.min_le_left _ _))

end Piece

section
variable {σ : Type} [Input σ]

open Piece

theorem Piece.same_awaitKey {p : Piece} (m : Machine) (dev : σ) (x : Register)
    (h : p ∉ (Instruction.awaitKey x).footprint m dev) :
    p.Same m dev (awaitKey m dev x).machine (awaitKey m dev x).input := by
  unfold awaitKey
  unfold Instruction.footprint at h
  cases hk : (Input.await dev).result with
  | error why =>
    simp only [hk] at h ⊢
    exact same_input m dev (ne_of_not_mem_pair h).2 _
  | ok answer =>
    cases answer with
    | none =>
      simp only [hk] at h ⊢
      obtain ⟨hc, hi⟩ := ne_of_not_mem_pair h
      exact (same_input m dev hi _).trans (same_jump m _ hc _)
    | some key =>
      simp only [hk] at h ⊢
      obtain ⟨hx, hi⟩ := ne_of_not_mem_pair h
      split
      · exact (same_input m dev hi _).trans (same_setV m _ hx key)
      · exact same_input m dev hi _

theorem mem_footprint_awaitKey {p : Piece} {x : Register} {m : Machine} {dev : σ}
    (h : p ∈ (Instruction.awaitKey x).footprint m dev) : p = .counter ∨ p = .register x ∨ p = .input := by
  unfold Instruction.footprint at h
  rcases hk : (Input.await dev).result with why | _ | key
  · simp only [hk, List.mem_cons, List.not_mem_nil, or_false] at h
    exact .inr h
  · simp only [hk, List.mem_cons, List.not_mem_nil, or_false] at h
    rcases h with h | h
    · exact .inl h
    · exact .inr (.inr h)
  · simp only [hk, List.mem_cons, List.not_mem_nil, or_false] at h
    exact .inr h

/-- the bytes of a footprint are those that an instruction writes from I on -/
theorem byte_mem_footprint {ins : Instruction} {m : Machine} {dev : σ} {addr : Nat} (h : .byte addr ∈ ins.footprint m dev) :
    m.i.toNat ≤ addr ∧ addr < Memory.size ∧
      ∃ x, ins = .decimal x ∧ addr ≤ m.i.toNat + 2 ∨ ins = .store x ∧ addr ≤ m.i.toNat + x.val := by
  cases ins with
  | decimal x =>
    obtain ⟨hle, hlt, hsize⟩ := Machine.mem_block.1 h
    exact ⟨hle, hsize, x, .inl ⟨rfl, by omega⟩⟩
  | store x =>
    obtain ⟨hle, hlt, hsize⟩ := Machine.mem_block.1 h
    exact ⟨hle, hsize, x, .inr ⟨rfl, by omega⟩⟩
  | awaitKey x => simpa using mem_footprint_awaitKey h
  | _ => simp [Instruction.footprint] at h

theorem keypad_not_mem_footprint (ins : Instruction) (m : Machine) (dev : σ) : .keypad ∉ ins.footprint m dev := by
  intro h
  cases ins with
  | awaitKey x => simpa using mem_footprint_awaitKey h
  | _ => simp [Instruction.footprint, Machine.block] at h

theorem timer_mem_footprint {ins : Instruction} {m : Machine} {dev : σ}
    (h : .delay ∈ ins.footprint m dev ∨ .sound ∈ ins.footprint m dev) : ∃ x, ins = .setDelay x ∨ ins = .setSound x := by
  cases ins with
  | setDelay x => exact ⟨x, .inl rfl⟩
  | setSound x => exact ⟨x, .inr rfl⟩
  | awaitKey x => simpa using h.imp mem_footprint_awaitKey mem_footprint_awaitKey
  | _ => simp [Instruction.footprint, Machine.block] at h

/-- does an instruction draw on the screen? -/
def Instruction.isDrawing : Instruction → Bool
  | .clear | .draw _ _ _ => true
  | _ => false

theorem screen_mem_footprint {ins : Instruction} {m : Machine} {dev : σ}
    (h : .screen ∈ ins.footprint m dev ∨ .redraw ∈ ins.footprint m dev) : ins.isDrawing = true := by
  cases ins with
  | clear => rfl
  | draw x y rows => rfl
  | awaitKey x => simpa using h.imp mem_footprint_awaitKey mem_footprint_awaitKey
  | _ => simp [Instruction.footprint, Machine.block] at h

/-- **Footprints.** An instruction leaves every piece that is not in its footprint as it was. -/
theorem execute_same (ins : Instruction) (m : Machine) (dev : σ) {p : Piece} (h : p ∉ ins.footprint m dev) :
    p.Same m dev (execute ins m dev).val.machine (execute ins m dev).val.input := by
  cases ins with
  | clear =>
    obtain ⟨hs, hr⟩ := ne_of_not_mem_pair h
    exact same_screen m dev hs hr _ _
  | ret => exact same_returnFrom m dev h
  | jump addr => exact same_jump m dev (ne_of_not_mem_singleton h) addr
  | call addr => exact same_callTo m dev h addr
  | skipEqByte x byte => exact same_skipIf m dev (ne_of_not_mem_singleton h) _
  | skipNeByte x byte => exact same_skipIf m dev (ne_of_not_mem_singleton h) _
  | skipEq x y => exact same_skipIf m dev (ne_of_not_mem_singleton h) _
  | skipNe x y => exact same_skipIf m dev (ne_of_not_mem_singleton h) _
  | skipPressed x => exact same_skipOnKey m dev (ne_of_not_mem_singleton h) x true
  | skipReleased x => exact same_skipOnKey m dev (ne_of_not_mem_singleton h) x false
  | jumpOffset addr => exact same_jump m dev (ne_of_not_mem_singleton h) _
  | add x y => exact same_setWithFlag m dev h _ _
  | sub x y => exact same_setWithFlag m dev h _ _
  | shiftRight x => exact same_setWithFlag m dev h _ _
  | subFrom x y => exact same_setWithFlag m dev h _ _
  | shiftLeft x => exact same_setWithFlag m dev h _ _
  | loadIndex addr => exact same_index m dev (ne_of_not_mem_singleton h) addr
  | addIndex x => exact same_index m dev (ne_of_not_mem_singleton h) _
  | glyph x => exact same_index m dev (ne_of_not_mem_singleton h) _
  | random x mask =>
    obtain ⟨hx, hr⟩ := ne_of_not_mem_pair h
    exact (same_random m dev hr _).trans (same_setV _ dev hx _)
  | draw x y rows => exact same_drawAt m dev h x y rows.val
  | setDelay x => exact same_delay m dev (ne_of_not_mem_singleton h) _
  | setSound x => exact same_sound m dev (ne_of_not_mem_singleton h) _
  | decimal x => exact same_storeDecimal m dev h x
  | store x => exact same_store m dev x h
  | load x => exact same_load m dev x h
  | awaitKey x => exact same_awaitKey m dev x h
  -- the others set one register
  | _ => exact same_setV m dev (ne_of_not_mem_singleton h) _

/-- **Opcodes and what they change.** Take any opcode that stands for an instruction, on any machine, with any input
device, and whether it ends well or in a fault. The instruction has the fields of the opcode for its operands, and every
piece outside its footprint is as before. A byte of memory that differs is one of the three from I on for LD B, Vx, and
one of those up to I + x for LD [I], Vx; it is never one below I. The keypad is as before. Nothing is left out: where no
piece differs, machine and device are the same. -/
theorem opcode_changes_within_footprint {opcode : UInt16} {ins : Instruction}
    (hd : Instruction.decode opcode = some ins) (m : Machine) (dev : σ) :
    let out := (execute ins m dev).val
    ins.FieldsOf opcode ∧
    (∀ p : Piece, p ∉ ins.footprint m dev → p.Same m dev out.machine out.input) ∧
    (∀ addr, out.machine.memory.byteAt addr ≠ m.memory.byteAt addr → m.i.toNat ≤ addr ∧ addr < Memory.size ∧
      ∃ x, ins = .decimal x ∧ addr ≤ m.i.toNat + 2 ∨ ins = .store x ∧ addr ≤ m.i.toNat + x.val) ∧
    out.machine.keypad = m.keypad ∧
    ((∀ p : Piece, p.Same m dev out.machine out.input) → out.machine = m ∧ out.input = dev) := by
  intro out
  have hsame : ∀ p : Piece, p ∉ ins.footprint m dev → p.Same m dev out.machine out.input :=
    fun p hp => execute_same ins m dev hp
  refine ⟨Instruction.fieldsOf_decode hd, hsame, ?_, ?_, Piece.eq_of_same⟩
  · intro addr hchanged
    have hmem : .byte addr ∈ ins.footprint m dev := by
      by_contra hout
      exact hchanged (hsame (.byte addr) hout)
    exact byte_mem_footprint hmem
  · exact hsame .keypad (keypad_not_mem_footprint ins m dev)

/-- LD [I], V3 with I two bytes before the end of memory: two registers are stored, the third address is a fault, and
the bottom of memory keeps its glyphs. -/
theorem store_stops_at_the_end :
    let m : Machine := { Machine.fresh .disabled (.ofSeed 0) with i := 0xFFE, v := Vector.replicate 16 7 }
    let out := (execute (.store 3) m (HeldKeys.ofKeys [] [])).val
    Instruction.decode 0xF355 = some (.store 3) ∧ out.fault = some (.outOfBounds 4096) ∧
      out.machine.memory.byteAt 0xFFE = 7 ∧ out.machine.memory.byteAt 0xFFF = 7 ∧
      out.machine.memory.byteAt 0 = 0xF0 ∧ out.machine.v = m.v := by
  intro m out
  have hd : Instruction.decode 0xF355 = some (.store 3) := by decide
  obtain ⟨-, hsame, -⟩ := opcode_changes_within_footprint hd m (HeldKeys.ofKeys [] [])
  have hbottom : out.machine.memory.byteAt 0 = m.memory.byteAt 0 := hsame (.byte 0) (by decide +kernel)
  have hv : out.machine.v = m.v := by
    apply Vector.ext
    intro k hk
    refine hsame (.register ⟨k, hk⟩) ?_
    simp [Instruction.footprint, Machine.block]
  -- one evaluation for all that is read off the outcome
  obtain ⟨hfault, hfirst, hsecond, hglyph⟩ : out.fault = some (.outOfBounds 4096) ∧
      out.machine.memory.byteAt 0xFFE = 7 ∧ out.machine.memory.byteAt 0xFFF = 7 ∧ m.memory.byteAt 0 = 0xF0 := by
    decide +kernel
  exact ⟨hd, hfault, hfirst, hsecond, hbottom.trans hglyph, hv⟩

end

end Chip8
