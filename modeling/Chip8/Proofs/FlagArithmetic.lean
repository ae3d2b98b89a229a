/-
Arithmetic with a flag: 8xy4 to 8xy7 and 8xyE. The result goes to Vx, which drops what does not fit in a byte, and VF
tells what was dropped: a carry, that no borrow was needed, or the bit shifted out. The two together lose nothing, as
`Exact` says in whole numbers. Both come from the operands as they were before, and VF is written last, so that the
flag wins where Vx is VF itself.

Results:
- `toNat_flagByte`, `exact_result`: flag and result, as numbers;
- `execute_instruction`: the five operations write their result and then their flag;
- `flag_arithmetic`: what an opcode of the five leaves in the registers, for all pairs of them.
-/
import Chip8.Execute
import Chip8.Proofs.OpcodeDigits

namespace Chip8

/-- the operations on registers that leave a flag -/
inductive FlagOp where
  | add
  | sub
  | shiftRight
  | subFrom
  | shiftLeft
  deriving DecidableEq, Repr

namespace FlagOp

/-- the digit that names the operation -/
def digit : FlagOp → Fin 16
  | add => 4
  | sub => 5
  | shiftRight => 6
  | subFrom => 7
  | shiftLeft => 0xE

/-- the opcode of the operation on Vx and Vy -/
def opcode (op : FlagOp) (x y : Register) : UInt16 :=
  Opcode.ofDigits 8 x y op.digit

/-- the instruction of the operation; a shift has one operand only -/
def instruction (x y : Register) : FlagOp → Instruction
  | add => .add x y
  | sub => .sub x y
  | shiftRight => .shiftRight x
  | subFrom => .subFrom x y
  | shiftLeft => .shiftLeft x

theorem decode_opcode (op : FlagOp) (x y : Register) :
    Instruction.decode (op.opcode x y) = some (op.instruction x y) := by
  unfold Instruction.decode
  rw [opcode, Opcode.named_eight, Opcode.x_ofDigits, Opcode.y_ofDigits]
  cases op <;> rfl

/-! ## Whole numbers -/

/-- does the operation on the numbers `a` and `b` raise the flag? -/
def flag (a b : Nat) : FlagOp → Bool
  | add => 255 < a + b
  | sub => b ≤ a
  | shiftRight => a % 2 = 1
  | subFrom => a ≤ b
  | shiftLeft => a.testBit 7

/-- the flag `f` and the result `r` account for all of the operands `a` and `b` -/
def Exact (a b f r : Int) : FlagOp → Prop
  | add => 256 * f + r = a + b
  | sub => r = a - b + 256 * (1 - f)
  | shiftRight => 2 * r + f = a
  | subFrom => r = b - a + 256 * (1 - f)
  | shiftLeft => 256 * f + r = 2 * a

/-! ## Bytes -/

/-- the byte that goes to Vx -/
def result (a b : UInt8) : FlagOp → UInt8
  | add => a + b
  | sub => a - b
  | shiftRight => a >>> 1
  | subFrom => b - a
  | shiftLeft => a <<< 1

/-- the byte that goes to VF -/
def flagByte (a b : UInt8) : FlagOp → UInt8
  | add => Machine.flagOf (a.toNat + b.toNat > 255)
  | sub => Machine.flagOf (a ≥ b)
  | shiftRight => a &&& 1
  | subFrom => Machine.flagOf (b ≥ a)
  | shiftLeft => a >>> 7

theorem toNat_flagOf (b : Bool) : (Machine.flagOf b).toNat = b.toNat := by
  cases b <;> rfl

theorem toNat_lowBit (a : UInt8) : (a &&& 1).toNat = a.toNat % 2 := by
  rw [UInt8.toNat_and]
  exact Nat.and_one_is_mod a.toNat

theorem toNat_half (a : UInt8) : (a >>> 1).toNat = a.toNat / 2 := by
  rw [UInt8.toNat_shiftRight]
  exact Nat.shiftRight_eq_div_pow a.toNat 1

theorem toNat_topBit (a : UInt8) : (a >>> 7).toNat = a.toNat / 128 := by
  rw [UInt8.toNat_shiftRight]
  exact Nat.shiftRight_eq_div_pow a.toNat 7

theorem toNat_double (a : UInt8) : (a <<< 1).toNat = 2 * a.toNat % 256 := by
  rw [UInt8.toNat_shiftLeft]
  show a.toNat <<< 1 % 256 = 2 * a.toNat % 256
  rw [Nat.shiftLeft_succ, Nat.shiftLeft_zero]

/-- a difference of bytes is 256 too large where it would be negative -/
theorem toNat_difference (a b : UInt8) :
    ((a - b).toNat : Int) = a.toNat - b.toNat + 256 * (1 - (decide (b.toNat ≤ a.toNat)).toNat) := by
  have ha := a.toNat_lt
  have hb := b.toNat_lt
  rw [UInt8.toNat_sub]
  by_cases h : b.toNat ≤ a.toNat
  · rw [decide_eq_true h, Bool.toNat_true]
    omega
  · rw [decide_eq_false h, Bool.toNat_false]
    omega

/-- the flag of the bytes is that of the numbers -/
theorem toNat_flagByte (op : FlagOp) (a b : UInt8) : (op.flagByte a b).toNat = (op.flag a.toNat b.toNat).toNat := by
  have ha := a.toNat_lt
  cases op with
  | add => exact toNat_flagOf _
  | sub => exact toNat_flagOf _
  | subFrom => exact toNat_flagOf _
  | shiftRight =>
    refine (toNat_lowBit a).trans ?_
    rcases Nat.mod_two_eq_zero_or_one a.toNat with h | h
    · simp [flag, h]
    · simp [flag, h]
  | shiftLeft =>
    refine (toNat_topBit a).trans ?_
    have htop : a.toNat / 128 = 0 ∨ a.toNat / 128 = 1 := by omega
    rcases htop with h | h
    · simp [flag, Nat.testBit_eq_decide_div_mod_eq, h]
    · simp [flag, Nat.testBit_eq_decide_div_mod_eq, h]

/-- **Nothing is lost.** Flag and result together account for the operands. -/
theorem exact_result (op : FlagOp) (a b : UInt8) :
    op.Exact a.toNat b.toNat (op.flagByte a b).toNat (op.result a b).toNat := by
  have ha := a.toNat_lt
  have hb := b.toNat_lt
  cases op with
  | add =>
    show 256 * ((Machine.flagOf (a.toNat + b.toNat > 255)).toNat : Int) + (a + b).toNat = a.toNat + b.toNat
    rw [toNat_flagOf, UInt8.toNat_add]
    by_cases h : a.toNat + b.toNat > 255
    · rw [decide_eq_true h, Bool.toNat_true]
      omega
    · rw [decide_eq_false h, Bool.toNat_false]
      omega
  | sub =>
    rw [toNat_flagByte]
    exact toNat_difference a b
  | subFrom =>
    rw [toNat_flagByte]
    exact toNat_difference b a
  | shiftRight =>
    show 2 * ((a >>> 1).toNat : Int) + (a &&& 1).toNat = a.toNat
    rw [toNat_half, toNat_lowBit]
    omega
  | shiftLeft =>
    show 256 * ((a >>> 7).toNat : Int) + (a <<< 1).toNat = 2 * a.toNat
    rw [toNat_topBit, toNat_double]
    omega

/-! ## Registers -/

/-- of a result and a flag the flag is written last -/
theorem getV_setWithFlag (m : Machine) (x r : Register) (result flagged : UInt8) :
    (m.setWithFlag x result flagged).getV r =
      if r = Machine.flag then flagged else if r = x then result else m.getV r := by
  rw [Machine.setWithFlag, Machine.getV_setV, Machine.getV_setV]

variable {σ : Type} [Input σ]

/-- the operations read both operands, then write their result, then their flag -/
theorem execute_instruction (op : FlagOp) (x y : Register) (m : Machine) (dev : σ) :
    (execute (op.instruction x y) m dev).val = .fine dev
      (m.setWithFlag x (op.result (m.getV x) (m.getV y)) (op.flagByte (m.getV x) (m.getV y))) := by
  cases op <;> rfl

end FlagOp

variable {σ : Type} [Input σ]

open Machine (flag)

/-- **Arithmetic with a flag.** Take any of the opcodes 8xy4 to 8xy7 and 8xyE, with any two registers, also one register
twice or VF, on any machine. Let `a` and `b` be what Vx and Vy are before the instruction, and `f` what VF is after it.
Then `f` is 1 or 0, and it is the flag of the operation on `a` and `b`: that the sum is more than 255, that nothing had
to be borrowed, the lowest or the highest bit of `a`. This is so also where Vx is VF. Where it is not, `f` and Vx lose
nothing of the operands. All other registers stay, and nothing else of the machine changes. -/
theorem flag_arithmetic (op : FlagOp) (x y : Register) (m : Machine) (dev : σ) :
    let a := (m.getV x).toNat
    let b := (m.getV y).toNat
    ∃ ins, Instruction.decode (op.opcode x y) = some ins ∧
      let out := (execute ins m dev).val
      let f := (out.machine.getV flag).toNat
      out.fault = none ∧ out.input = dev ∧
      f = (op.flag a b).toNat ∧
      (x ≠ flag → op.Exact a b f (out.machine.getV x).toNat) ∧
      (∀ r, r ≠ x → r ≠ flag → out.machine.getV r = m.getV r) ∧
      out.machine = { m with v := out.machine.v } := by
  intro a b
  refine ⟨op.instruction x y, op.decode_opcode x y, ?_⟩
  intro out f
  have hout : out = .fine dev (m.setWithFlag x (op.result (m.getV x) (m.getV y)) (op.flagByte (m.getV x) (m.getV y))) :=
    op.execute_instruction x y m dev
  have hget : ∀ r, out.machine.getV r = if r = flag then op.flagByte (m.getV x) (m.getV y)
      else if r = x then op.result (m.getV x) (m.getV y) else m.getV r := by
    intro r
    rw [hout]
    exact FlagOp.getV_setWithFlag ..
  have hflag : out.machine.getV flag = op.flagByte (m.getV x) (m.getV y) := (hget flag).trans (if_pos rfl)
  refine ⟨by rw [hout]; rfl, by rw [hout]; rfl, ?_, ?_, ?_, by rw [hout]; rfl⟩
  · exact (congrArg UInt8.toNat hflag).trans (op.toNat_flagByte _ _)
  · intro hx
    have hresult : out.machine.getV x = op.result (m.getV x) (m.getV y) := by
      rw [hget, if_neg hx, if_pos rfl]
    show op.Exact a b (out.machine.getV flag).toNat (out.machine.getV x).toNat
    rw [hflag, hresult]
    exact op.exact_result _ _
  · intro r hr hf
    rw [hget, if_neg hf, if_neg hr]

/-- VF as an operand and as the result: doubling a VF of 129 leaves the carry, and taking it from 1 leaves 128 in V1 and
no flag, since it had to borrow. -/
theorem flag_as_operand :
    let m : Machine := (((Machine.fresh .disabled (.ofSeed 0)).setV 1 1).setV 2 7).setV 15 129
    let doubled := (execute (.add 15 15) m (HeldKeys.ofKeys [] [])).val.machine
    let taken := (execute (.sub 1 15) m (HeldKeys.ofKeys [] [])).val.machine
    (FlagOp.add.opcode 15 15 = 0x8FF4 ∧ doubled.getV flag = 1 ∧ doubled.getV 2 = 7) ∧
    ((1 : Register) ≠ flag ∧ FlagOp.sub.opcode 1 15 = 0x81F5 ∧ taken.getV flag = 0 ∧ taken.getV 1 = 128) := by
  intro m doubled taken
  obtain ⟨ins, hadd, -, -, hcarry, -, hother, -⟩ := flag_arithmetic .add 15 15 m (HeldKeys.ofKeys [] [])
  obtain rfl : ins = .add 15 15 := Option.some.inj (hadd.symm.trans (FlagOp.decode_opcode .add 15 15))
  obtain ⟨ins, hsub, -, -, hborrow, hexact, -⟩ := flag_arithmetic .sub 1 15 m (HeldKeys.ofKeys [] [])
  obtain rfl : ins = .sub 1 15 := Option.some.inj (hsub.symm.trans (FlagOp.decode_opcode .sub 1 15))
  have hne : (1 : Register) ≠ flag := by decide
  have hexact := hexact hne
  rw [hborrow] at hexact
  refine ⟨⟨by decide, UInt8.toNat_inj.1 hcarry, hother 2 (by decide) (by decide)⟩,
    hne, by decide, UInt8.toNat_inj.1 hborrow, UInt8.toNat_inj.1 ?_⟩
  exact Int.ofNat_inj.1 hexact

end Chip8
