/-
Opcodes as four hexadecimal digits, the way tables of instructions write them: 8xy4, Fx55, Fx0A. Masking works digit by
digit, and so does decoding: in the two families of opcodes whose last digits name the instruction, the digits in
between are its registers.

Results:
- `and_digits`, `Opcode.ofDigits_and`: masking digit by digit;
- `Opcode.x_ofDigits`, `Opcode.y_ofDigits`: the second digit is the register Vx, the third one Vy;
- `Opcode.named_eight`, `Opcode.named_fifteen`: which digits name the instruction of an opcode 8xyn and of one Fxnn.
-/
import Chip8.Instruction

namespace Chip8

/-- masking leaves no carry, so the last digit and those before it are masked apart -/
theorem and_digits {a b c d : Nat} (hb : b < 16) (hd : d < 16) :
    (16 * a + b) &&& (16 * c + d) = 16 * (a &&& c) + (b &&& d) := by
  have hand : b &&& d < 16 := Nat.lt_of_le_of_lt Nat.and_le_left hb
  apply Nat.eq_of_testBit_eq
  intro k
  have hleft := Nat.testBit_two_pow_mul_add (i := 4) a hb k
  have hright := Nat.testBit_two_pow_mul_add (i := 4) c hd k
  have hboth := Nat.testBit_two_pow_mul_add (i := 4) (a &&& c) hand k
  simp only [Nat.reducePow] at hleft hright hboth
  rw [Nat.testBit_and, hleft, hright, hboth]
  by_cases h : k < 4
  · rw [if_pos h, if_pos h, if_pos h, Nat.testBit_and]
  · rw [if_neg h, if_neg h, if_neg h, Nat.testBit_and]

namespace Opcode

/-- the opcode with these digits -/
def ofDigits (a b c d : Fin 16) : UInt16 :=
  (16 * (16 * (16 * a.val + b.val) + c.val) + d.val).toUInt16

theorem toNat_ofDigits (a b c d : Fin 16) :
    (ofDigits a b c d).toNat = 16 * (16 * (16 * a.val + b.val) + c.val) + d.val := by
  have ha := a.isLt
  have hb := b.isLt
  have hc := c.isLt
  have hd := d.isLt
  unfold ofDigits
  simp
  omega

theorem x_ofDigits (a b c d : Fin 16) : x (ofDigits a b c d) = b := by
  apply Fin.ext
  have hb := b.isLt
  have hc := c.isLt
  have hd := d.isLt
  show (ofDigits a b c d).toNat / 256 % 16 = b.val
  rw [toNat_ofDigits]
  omega

theorem y_ofDigits (a b c d : Fin 16) : y (ofDigits a b c d) = c := by
  apply Fin.ext
  have hc := c.isLt
  have hd := d.isLt
  show (ofDigits a b c d).toNat / 16 % 16 = c.val
  rw [toNat_ofDigits]
  omega

/-! ## Masks -/

theorem ofDigits_and (a b c d a' b' c' d' : Fin 16) :
    ofDigits a b c d &&& ofDigits a' b' c' d' = ofDigits (a &&& a') (b &&& b') (c &&& c') (d &&& d') := by
  have hval : ∀ m n : Fin 16, (m &&& n).val = m.val &&& n.val := by
    intro m n
    exact Nat.mod_eq_of_lt (Nat.lt_of_le_of_lt Nat.and_le_left m.isLt)
  apply UInt16.toNat_inj.1
  rw [UInt16.toNat_and, toNat_ofDigits, toNat_ofDigits, toNat_ofDigits, and_digits d.isLt d'.isLt,
    and_digits c.isLt c'.isLt, and_digits b.isLt b'.isLt, hval, hval, hval, hval]

theorem digit_and_fifteen (n : Fin 16) : n &&& 15 = n := by
  revert n
  decide

theorem digit_and_zero (n : Fin 16) : n &&& 0 = 0 := by
  revert n
  decide

theorem top_ofDigits (a b c d : Fin 16) : ofDigits a b c d &&& 0xF000 = ofDigits a 0 0 0 := by
  have hmask : (0xF000 : UInt16) = ofDigits 15 0 0 0 := rfl
  rw [hmask, ofDigits_and, digit_and_fifteen, digit_and_zero, digit_and_zero, digit_and_zero]

/-- the last digit of an opcode 8xyn names its instruction -/
theorem named_eight (x y n : Fin 16) : ofDigits 8 x y n &&& familyMask (ofDigits 8 x y n) = ofDigits 8 0 0 n := by
  have hmask : familyMask (ofDigits 8 x y n) = ofDigits 15 0 0 15 := by
    unfold familyMask
    rw [top_ofDigits]
    rfl
  rw [hmask, ofDigits_and, digit_and_fifteen, digit_and_zero, digit_and_zero, digit_and_fifteen]

/-- the last two digits of an opcode Fxnn name its instruction -/
theorem named_fifteen (x c d : Fin 16) :
    ofDigits 15 x c d &&& familyMask (ofDigits 15 x c d) = ofDigits 15 0 c d := by
  have hmask : familyMask (ofDigits 15 x c d) = ofDigits 15 0 15 15 := by
    unfold familyMask
    rw [top_ofDigits]
    rfl
  rw [hmask, ofDigits_and, digit_and_fifteen, digit_and_zero, digit_and_fifteen, digit_and_fifteen]

end Opcode

end Chip8
