/-
Drawing a sprite, from the opcode to the pixels. The rows of the sprite are the bytes of memory from I on, and its
corner is at the column in Vx and the row in Vy, both as they were before the instruction, also where one of them is VF.

Results:
- `drawAt_of_fits`: a sprite that lies in memory is drawn, and the machine is as before but for screen and flag;
- `sprite_drawn`: what every pixel is afterwards, and what the flag tells.
-/
import Chip8.Proofs.Faults
import Chip8.Proofs.Screen.Sprite

namespace Chip8

/-- bytes that lie in memory are read -/
theorem Memory.read_of_fits {addr : UInt16} {len : Nat} (hstart : addr.toNat < size) (hend : addr.toNat + len ≤ size)
    (m : Memory) : m.read addr len = .ok ((List.range len).map fun k => m.byteAt (addr.toNat + k)) := by
  rw [read, (checkRange_eq_ok_iff addr len).2 ⟨hstart, hend⟩]
  rfl

namespace Machine

/-- the last value that a register is set to stays -/
theorem setV_setV (m : Machine) (x : Register) (b c : UInt8) : (m.setV x b).setV x c = m.setV x c := by
  have hv : (m.v.set x b).set x c = m.v.set x c := Vector.set_set ..
  unfold setV
  rw [hv]

theorem flagOf_cases (b : Bool) : flagOf b = 0 ∨ flagOf b = 1 := by
  cases b with
  | false => exact .inl rfl
  | true => exact .inr rfl

theorem flagOf_eq_one_iff {b : Bool} : flagOf b = 1 ↔ b = true := by
  cases b with
  | false => decide
  | true => decide

/-- the rows of the sprite at I -/
def spriteRows (m : Machine) (rows : Nat) : List UInt8 :=
  (List.range rows).map fun k => m.memory.byteAt (m.i.toNat + k)

/-- the bit that the sprite of `rows` rows at I, with its corner at column `a` and row `b`, has on a position -/
def spriteBit (m : Machine) (a b rows : Nat) (p : Position) : Bool :=
  if a ≤ p.x.val ∧ p.x.val < a + 8 ∧ b ≤ p.y.val ∧ p.y.val < b + rows then
    (m.memory.byteAt (m.i.toNat + (p.y.val - b))).toNat.testBit (7 - (p.x.val - a))
  else false

theorem covers_spriteRows (m : Machine) (a b rows : Nat) (p : Position) :
    Screen.covers a b (m.spriteRows rows) p = m.spriteBit a b rows p := by
  have hlen : (m.spriteRows rows).length = rows := by simp [spriteRows]
  unfold Screen.covers spriteBit
  rw [hlen]
  by_cases hin : a ≤ p.x.val ∧ p.x.val < a + 8 ∧ b ≤ p.y.val ∧ p.y.val < b + rows
  · have hrow : (m.spriteRows rows).getD (p.y.val - b) 0 = m.memory.byteAt (m.i.toNat + (p.y.val - b)) := by
      have hlt : p.y.val - b < rows := by omega
      simp [spriteRows, List.getD_eq_getElem?_getD, hlt]
    rw [if_pos hin, if_pos hin, hrow]
  · rw [if_neg hin, if_neg hin]

/-- a sprite that lies in memory is drawn; but for screen and flag the machine is as before -/
theorem drawAt_of_fits {m : Machine} {rows : Nat} (hstart : m.i.toNat < Memory.size)
    (hend : m.i.toNat + rows ≤ Memory.size) (x y : Register) :
    let drawn := m.screen.drawSprite (m.getV x) (m.getV y) (m.spriteRows rows)
    m.drawAt x y rows =
      ({ m with v := (m.setV flag (flagOf drawn.2)).v, screen := drawn.1, redraw := true }, none) := by
  intro drawn
  have hread : (m.setV flag 0).memory.read (m.setV flag 0).i rows = .ok (m.spriteRows rows) :=
    Memory.read_of_fits hstart hend m.memory
  have hdraw : (m.setV flag 0).draw (m.getV x) (m.getV y) rows =
      .ok (drawn.2, { m.setV flag 0 with screen := drawn.1, redraw := true }) := by
    unfold draw
    rw [hread]
    rfl
  have hflag := setV_setV { m with screen := drawn.1, redraw := true } flag 0 (flagOf drawn.2)
  unfold drawAt
  simp only [hdraw]
  exact congrArg (·, none) hflag

end Machine

theorem Instruction.decode_draw {opcode : UInt16} (h : opcode &&& 0xF000 = 0xD000) :
    decode opcode = some (.draw (Opcode.x opcode) (Opcode.y opcode) (Opcode.nibble opcode)) := by
  have hmask : Opcode.familyMask opcode = 0xF000 := by
    unfold Opcode.familyMask
    rw [h]
    rfl
  unfold decode
  rw [hmask, h]
  rfl

variable {σ : Type} [Input σ]

open Machine (flag flagOf)

/-- **Sprites, end to end.** Take any opcode of the form Dxyn, on a machine whose n bytes from I on lie in memory. Let
`a` and `b` be what Vx and Vy are before the instruction, also where one of them is VF. The instruction goes well, and
every pixel is switched over just when the sprite with its corner at column `a` and row `b` has a set bit there: bit
7 - (px - a) of the byte at I + (py - b), for the columns from `a` up to `a + 7` and the rows from `b` up to
`b + n - 1`. These are numbers that do not wrap around, so what is past the right or the bottom edge is nowhere. VF is
1 when such a bit was on a lit pixel, and 0 otherwise. The screen has to be shown again, and nothing else changes. -/
theorem sprite_drawn {opcode : UInt16} (hop : opcode &&& 0xF000 = 0xD000) (m : Machine) (dev : σ)
    (hstart : m.i.toNat < Memory.size) (hend : m.i.toNat + (Opcode.nibble opcode).val ≤ Memory.size) :
    let a := (m.getV (Opcode.x opcode)).toNat
    let b := (m.getV (Opcode.y opcode)).toNat
    let bit := m.spriteBit a b (Opcode.nibble opcode).val
    ∃ ins, Instruction.decode opcode = some ins ∧
      let out := (execute ins m dev).val
      out.fault = none ∧ out.input = dev ∧
      (∀ p, out.machine.screen.pixel p = (m.screen.pixel p ^^ bit p)) ∧
      (out.machine.getV flag = 0 ∨ out.machine.getV flag = 1) ∧
      (out.machine.getV flag = 1 ↔ ∃ p, m.screen.pixel p = true ∧ bit p = true) ∧
      out.machine = { m with
        v := (m.setV flag (out.machine.getV flag)).v
        screen := out.machine.screen
        redraw := true } := by
  intro a b bit
  refine ⟨_, Instruction.decode_draw hop, ?_⟩
  intro out
  let drawn := m.screen.drawSprite (m.getV (Opcode.x opcode)) (m.getV (Opcode.y opcode))
    (m.spriteRows (Opcode.nibble opcode).val)
  have hout : out.fault = none ∧ out.machine = { m with
      v := (m.setV flag (flagOf drawn.2)).v
      screen := drawn.1
      redraw := true } := by
    have hdraw := Machine.drawAt_of_fits hstart hend (Opcode.x opcode) (Opcode.y opcode)
    exact ⟨congrArg Prod.snd hdraw, congrArg Prod.fst hdraw⟩
  have hcovers : ∀ p, Screen.covers a b (m.spriteRows (Opcode.nibble opcode).val) p = bit p :=
    m.covers_spriteRows a b _
  have hflag : out.machine.getV flag = flagOf drawn.2 := by
    rw [hout.2]
    exact (m.getV_setV flag flag _).trans (if_pos rfl)
  have hcollision : drawn.2 = true ↔ ∃ p, m.screen.pixel p = true ∧ bit p = true := by
    refine (Screen.collision_drawSprite ..).trans ?_
    exact exists_congr fun p => and_congr_right fun _ => by rw [← hcovers p]
  refine ⟨hout.1, rfl, ?_, ?_, ?_, ?_⟩
  · intro p
    rw [hout.2, ← hcovers p]
    exact Screen.pixel_drawSprite ..
  · rw [hflag]
    exact Machine.flagOf_cases drawn.2
  · rw [hflag, Machine.flagOf_eq_one_iff, hcollision]
  · rw [hflag, hout.2]

/-- DRW VF, V0, 2 on the last two bytes of a memory full of ones, on a screen that is all lit, with the corner in column
60 of the last line. Four pixels go out; what is past the edges does not come back in at the left or at the top. -/
theorem sprite_at_the_corner :
    let m : Machine := { Machine.fresh .disabled (.ofSeed 0) with
      i := 0xFFE
      v := (Vector.replicate 16 31).set 15 60
      memory := ⟨Vector.replicate 4096 0xFF⟩
      screen := ⟨Vector.replicate 2048 true⟩ }
    let out := (execute (.draw 15 0 2) m (HeldKeys.ofKeys [] [])).val
    ((0xDF02 : UInt16) &&& 0xF000 = 0xD000 ∧ m.i.toNat < Memory.size ∧
      m.i.toNat + (Opcode.nibble 0xDF02).val ≤ Memory.size) ∧
    Instruction.decode 0xDF02 = some (.draw 15 0 2) ∧ out.fault = none ∧
    (∀ p, out.machine.screen.pixel p = !decide (60 ≤ p.x.val ∧ p.y.val = 31)) ∧
    out.machine.getV flag = 1 := by
  intro m out
  have hop : (0xDF02 : UInt16) &&& 0xF000 = 0xD000 := by decide
  have hstart : m.i.toNat < Memory.size := by decide
  have hend : m.i.toNat + (Opcode.nibble 0xDF02).val ≤ Memory.size := by decide
  have hd : Instruction.decode 0xDF02 = some (.draw 15 0 2) := by decide
  obtain ⟨ins, hins, hfault, -, hpixel, -, hcollision, -⟩ :=
    sprite_drawn hop m (HeldKeys.ofKeys [] []) hstart hend
  obtain rfl : ins = .draw 15 0 2 := Option.some.inj (hins.symm.trans hd)
  have hlit : ∀ p, m.screen.pixel p = true := fun p => Vector.getElem_replicate _
  have hones : ∀ a, a < 4096 → m.memory.byteAt a = 0xFF := by
    intro a ha
    show (Vector.replicate 4096 (0xFF : UInt8))[a]?.getD 0 = 0xFF
    rw [Vector.getElem?_replicate, if_pos ha]
    rfl
  have hbit : ∀ p, m.spriteBit 60 31 2 p = decide (60 ≤ p.x.val ∧ p.y.val = 31) := by
    intro p
    have hx := p.x.isLt
    have hy := p.y.isLt
    have hbyte : ∀ k < 8, (0xFF : UInt8).toNat.testBit k = true := by decide
    unfold Machine.spriteBit
    by_cases hin : 60 ≤ p.x.val ∧ p.y.val = 31
    · have hlow : m.memory.byteAt (m.i.toNat + (p.y.val - 31)) = 0xFF := hones _ (by show 4094 + _ < _; omega)
      rw [if_pos (by omega), hlow, hbyte _ (by omega), decide_eq_true hin]
    · rw [if_neg (by omega), decide_eq_false hin]
  refine ⟨⟨hop, hstart, hend⟩, hd, hfault, ?_, ?_⟩
  · intro p
    exact (hpixel p).trans (by rw [hlit p, Bool.true_xor]; exact congrArg (!·) (hbit p))
  · have hcorner := hbit ⟨⟨60, by decide⟩, ⟨31, by decide⟩⟩
    exact hcollision.2 ⟨_, hlit _, hcorner⟩

end Chip8
