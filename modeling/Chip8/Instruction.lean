/-
The instruction set: one constructor per instruction, with its operands. `decode` reads an opcode: its top digit decides
which bits name the instruction (`familyMask`) and which ones are operands. Operands are register Vx (bits 8-11),
register Vy (bits 4-7), a byte (bits 0-7), an address (bits 0-11) and a nibble (bits 0-3); `fieldsOf_decode` says that
a decoded instruction has these for operands.
-/

namespace Chip8

/-- literals of four bits, 0 to 15, are what they say -/
instance instNeZeroSixteen : @NeZero Nat Zero.ofOfNat0 16 :=
  ⟨Nat.succ_ne_zero 15⟩

abbrev Register := Fin 16

namespace Opcode

def x (opcode : UInt16) : Register :=
  Fin.ofNat 16 (opcode.toNat / 256)

def y (opcode : UInt16) : Register :=
  Fin.ofNat 16 (opcode.toNat / 16)

def byte (opcode : UInt16) : UInt8 :=
  opcode.toUInt8

def addr (opcode : UInt16) : UInt16 :=
  opcode &&& 0x0FFF

theorem addr_lt (opcode : UInt16) : (addr opcode).toNat < 4096 := by
  have h : (addr opcode).toNat ≤ 0x0FFF := by
    unfold addr
    rw [UInt16.toNat_and]
    exact Nat.and_le_right
  omega

def nibble (opcode : UInt16) : Fin 16 :=
  Fin.ofNat 16 opcode.toNat

/-- which bits of the opcode name the instruction, by its top digit -/
def familyMask (opcode : UInt16) : UInt16 :=
  match opcode &&& 0xF000 with
  | 0x0000 | 0xE000 | 0xF000 => 0xF0FF
  | 0x8000 => 0xF00F
  | _ => 0xF000

end Opcode

/-- the instructions; `x` and `y` are the registers Vx and Vy -/
inductive Instruction where
  | clear
  | ret
  | jump (addr : UInt16)
  | call (addr : UInt16)
  | skipEqByte (x : Register) (byte : UInt8)
  | skipNeByte (x : Register) (byte : UInt8)
  | skipEq (x y : Register)
  | loadByte (x : Register) (byte : UInt8)
  | addByte (x : Register) (byte : UInt8)
  | copy (x y : Register)
  | or (x y : Register)
  | and (x y : Register)
  | xor (x y : Register)
  | add (x y : Register)
  | sub (x y : Register)
  | shiftRight (x : Register)
  | subFrom (x y : Register)
  | shiftLeft (x : Register)
  | skipNe (x y : Register)
  | loadIndex (addr : UInt16)
  | jumpOffset (addr : UInt16)
  | random (x : Register) (byte : UInt8)
  | draw (x y : Register) (rows : Fin 16)
  | skipPressed (x : Register)
  | skipReleased (x : Register)
  | readDelay (x : Register)
  | awaitKey (x : Register)
  | setDelay (x : Register)
  | setSound (x : Register)
  | addIndex (x : Register)
  | glyph (x : Register)
  | decimal (x : Register)
  | store (x : Register)
  | load (x : Register)
  deriving DecidableEq, Repr

namespace Instruction

open Opcode

/-- the instruction an opcode stands for; none when nothing in the set matches -/
def decode (opcode : UInt16) : Option Instruction :=
  match opcode &&& familyMask opcode with
  | 0x00E0 => some .clear
  | 0x00EE => some .ret
  | 0x1000 => some (.jump (addr opcode))
  | 0x2000 => some (.call (addr opcode))
  | 0x3000 => some (.skipEqByte (x opcode) (byte opcode))
  | 0x4000 => some (.skipNeByte (x opcode) (byte opcode))
  | 0x5000 => some (.skipEq (x opcode) (y opcode))
  | 0x6000 => some (.loadByte (x opcode) (byte opcode))
  | 0x7000 => some (.addByte (x opcode) (byte opcode))
  | 0x8000 => some (.copy (x opcode) (y opcode))
  | 0x8001 => some (.or (x opcode) (y opcode))
  | 0x8002 => some (.and (x opcode) (y opcode))
  | 0x8003 => some (.xor (x opcode) (y opcode))
  | 0x8004 => some (.add (x opcode) (y opcode))
  | 0x8005 => some (.sub (x opcode) (y opcode))
  | 0x8006 => some (.shiftRight (x opcode))
  | 0x8007 => some (.subFrom (x opcode) (y opcode))
  | 0x800E => some (.shiftLeft (x opcode))
  | 0x9000 => some (.skipNe (x opcode) (y opcode))
  | 0xA000 => some (.loadIndex (addr opcode))
  | 0xB000 => some (.jumpOffset (addr opcode))
  | 0xC000 => some (.random (x opcode) (byte opcode))
  | 0xD000 => some (.draw (x opcode) (y opcode) (nibble opcode))
  | 0xE09E => some (.skipPressed (x opcode))
  | 0xE0A1 => some (.skipReleased (x opcode))
  | 0xF007 => some (.readDelay (x opcode))
  | 0xF00A => some (.awaitKey (x opcode))
  | 0xF015 => some (.setDelay (x opcode))
  | 0xF018 => some (.setSound (x opcode))
  | 0xF01E => some (.addIndex (x opcode))
  | 0xF029 => some (.glyph (x opcode))
  | 0xF033 => some (.decimal (x opcode))
  | 0xF055 => some (.store (x opcode))
  | 0xF065 => some (.load (x opcode))
  | _ => none

/-- an instruction's operands are the fields of the opcode -/
def FieldsOf (opcode : UInt16) : Instruction → Prop
  | clear | ret => True
  | jump a | call a | loadIndex a | jumpOffset a => a = addr opcode
  | skipEqByte r b | skipNeByte r b | loadByte r b | addByte r b | random r b => r = x opcode ∧ b = byte opcode
  | skipEq r q | copy r q | or r q | and r q | xor r q | add r q | sub r q | subFrom r q | skipNe r q =>
    r = x opcode ∧ q = y opcode
  | draw r q n => r = x opcode ∧ q = y opcode ∧ n = nibble opcode
  | shiftRight r | shiftLeft r | skipPressed r | skipReleased r | readDelay r | awaitKey r | setDelay r | setSound r
  | addIndex r | glyph r | decimal r | store r | load r => r = x opcode

theorem fieldsOf_decode {opcode : UInt16} {ins : Instruction} (h : decode opcode = some ins) : ins.FieldsOf opcode := by
  unfold decode at h
  split at h <;> cases h <;> simp [FieldsOf]

/-- the assembly form, with the kinds of the operands in place of their values -/
def mnemonic : Instruction → String
  | clear => "CLS"
  | ret => "RET"
  | jump _ => "JP NNN"
  | call _ => "CALL NNN"
  | skipEqByte _ _ => "SE Vx, KK"
  | skipNeByte _ _ => "SNE Vx, KK"
  | skipEq _ _ => "SE Vx, Vy"
  | loadByte _ _ => "LD Vx, KK"
  | addByte _ _ => "ADD Vx, KK"
  | copy _ _ => "LD Vx, Vy"
  | or _ _ => "OR Vx, Vy"
  | and _ _ => "AND Vx, Vy"
  | xor _ _ => "XOR Vx, Vy"
  | add _ _ => "ADD Vx, Vy"
  | sub _ _ => "SUB Vx, Vy"
  | shiftRight _ => "SHR Vx"
  | subFrom _ _ => "SUBN Vx, Vy"
  | shiftLeft _ => "SHL Vx"
  | skipNe _ _ => "SNE Vx, Vy"
  | loadIndex _ => "LD I, NNN"
  | jumpOffset _ => "JP V0, NNN"
  | random _ _ => "RND Vx, KK"
  | draw _ _ _ => "DRW Vx, Vy, N"
  | skipPressed _ => "SKP Vx"
  | skipReleased _ => "SKNP Vx"
  | readDelay _ => "LD Vx, DT"
  | awaitKey _ => "LD Vx, K"
  | setDelay _ => "LD DT, Vx"
  | setSound _ => "LD ST, Vx"
  | addIndex _ => "ADD I, Vx"
  | glyph _ => "LD F, Vx"
  | decimal _ => "LD B, Vx"
  | store _ => "LD [I], Vx"
  | load _ => "LD Vx, [I]"

end Instruction

end Chip8
