/-
Decimal digits in memory. LD B, Vx takes a byte apart into three decimal digits by shifting its bits in from the top,
and puts them at I, I+1 and I+2, or faults and puts none of them there.

While the bits are shifted in, the digits are decimal and stand for the part of the byte that is in so far. A digit of
five or more is corrected before it is doubled, so that it carries at ten and not at sixteen (`double_digit`); below a
thousand nothing is carried out at the top.

Results:
- `Bcd.value_shiftIn`, `Bcd.value_foldl_shiftIn`: one bit and all of them;
- `Bcd.unpack_ofByte`: the three bytes that are stored are the digits of the byte;
- `Memory.checkRange_eq_error`: a range that does not fit faults with its first address outside memory;
- `decimal_store`: the instruction.
-/
import Mathlib.Order.Bounds.Basic
import Chip8.Proofs.AfterFault
import Chip8.Proofs.OpcodeDigits

namespace Chip8

/-! ## Digits -/

namespace Bcd

/-- digits that are decimal -/
structure Digits.Decimal (ds : Digits) : Prop where
  hundreds : ds.hundreds.toNat ≤ 9
  tens : ds.tens.toNat ≤ 9
  ones : ds.ones.toNat ≤ 9

/-- the number that digits stand for -/
def Digits.value (ds : Digits) : Nat :=
  100 * ds.hundreds.toNat + 10 * ds.tens.toNat + ds.ones.toNat

/-- a digit that is corrected and doubled, with a carry coming in: what stays of it, and what it carries out -/
theorem double_digit {d c : UInt16} (hd : d.toNat ≤ 9) (hc : c.toNat ≤ 1) :
    (lowNibble (correct d <<< 1) ||| c).toNat ≤ 9 ∧ (correct d >>> 3).toNat ≤ 1 ∧
      10 * (correct d >>> 3).toNat + (lowNibble (correct d <<< 1) ||| c).toNat = 2 * d.toNat + c.toNat := by
  have hall : ∀ (m : Fin 10) (n : Fin 2),
      let d := UInt16.ofNat m.val
      let c := UInt16.ofNat n.val
      (lowNibble (correct d <<< 1) ||| c).toNat ≤ 9 ∧ (correct d >>> 3).toNat ≤ 1 ∧
        10 * (correct d >>> 3).toNat + (lowNibble (correct d <<< 1) ||| c).toNat = 2 * d.toNat + c.toNat := by
    decide
  have hone := hall ⟨d.toNat, Nat.lt_succ_of_le hd⟩ ⟨c.toNat, Nat.lt_succ_of_le hc⟩
  simpa only [UInt16.ofNat_toNat] using hone

/-- **One bit.** Below five hundred the number is doubled and takes in the bit, and its digits stay decimal. -/
theorem value_shiftIn {ds : Digits} {bit : UInt16} (h : ds.Decimal) (hbit : bit.toNat ≤ 1) (hsmall : ds.value < 500) :
    (shiftIn ds bit).Decimal ∧ (shiftIn ds bit).value = 2 * ds.value + bit.toNat := by
  obtain ⟨hones, hcarry, eones⟩ := double_digit h.ones hbit
  obtain ⟨htens, hcarry', etens⟩ := double_digit h.tens hcarry
  obtain ⟨hhundreds, -, ehundreds⟩ := double_digit h.hundreds hcarry'
  refine ⟨⟨hhundreds, htens, hones⟩, ?_⟩
  simp only [Digits.value, shiftIn] at hsmall ⊢
  omega

/-- the number that bits stand for after a number `n`, the top bit first -/
def extend (n : Nat) (bs : List UInt16) : Nat :=
  bs.foldl (fun n bit => 2 * n + bit.toNat) n

theorem extend_cons (n : Nat) (bit : UInt16) (bs : List UInt16) :
    extend n (bit :: bs) = extend (2 * n + bit.toNat) bs := rfl

theorem le_extend (n : Nat) (bs : List UInt16) : n ≤ extend n bs := by
  induction bs generalizing n with
  | nil => exact Nat.le_refl n
  | cons bit bs ih =>
    calc n ≤ 2 * n + bit.toNat := by omega
      _ ≤ extend (2 * n + bit.toNat) bs := ih _

/-- **All bits.** While the number stays below a thousand the digits stand for all bits that were shifted in. -/
theorem value_foldl_shiftIn {bs : List UInt16} (hbits : ∀ bit ∈ bs, bit.toNat ≤ 1) {ds : Digits} (h : ds.Decimal)
    (hsmall : extend ds.value bs < 1000) :
    (bs.foldl shiftIn ds).Decimal ∧ (bs.foldl shiftIn ds).value = extend ds.value bs := by
  induction bs generalizing ds with
  | nil => exact ⟨h, rfl⟩
  | cons bit bs ih =>
    obtain ⟨hbit, hbits⟩ := List.forall_mem_cons.1 hbits
    rw [extend_cons] at hsmall ⊢
    have hnext : 2 * ds.value + bit.toNat ≤ extend (2 * ds.value + bit.toNat) bs := le_extend _ bs
    obtain ⟨hdecimal, hvalue⟩ := value_shiftIn h hbit (by omega)
    rw [List.foldl_cons, ← hvalue]
    exact ih hbits hdecimal (hvalue ▸ hsmall)

theorem toNat_le_one_of_mem_bits {val : UInt8} {bit : UInt16} (h : bit ∈ bits val) : bit.toNat ≤ 1 := by
  obtain ⟨k, -, rfl⟩ := List.mem_map.1 h
  have hmod : (val >>> k).toNat % 2 ≤ 1 := by omega
  rwa [UInt8.toNat_toUInt16, UInt8.toNat_mod]

/-- the bits of a byte below bit `k`, the top one first -/
def bitsBelow (val : UInt8) (k : Nat) : List UInt16 :=
  (List.range k).reverse.map fun j => ((val >>> j.toUInt8) % 2).toUInt16

/-- a part of a byte and the bits after it make the byte -/
theorem extend_bitsBelow (val : UInt8) {k : Nat} (hk : k ≤ 8) :
    extend (val.toNat >>> k) (bitsBelow val k) = val.toNat := by
  induction k with
  | zero => rfl
  | succ k ih =>
    have hbit : ((val >>> k.toUInt8) % 2).toUInt16.toNat = (val.toNat >>> k) % 2 := by
      have h256 : k % 256 % 8 = k := by omega
      have hshift : (val >>> k.toUInt8).toNat = val.toNat >>> (k % 256 % 8) := UInt8.toNat_shiftRight val k.toUInt8
      rw [UInt8.toNat_toUInt16, UInt8.toNat_mod, hshift, h256]
      rfl
    have hpart : 2 * (val.toNat >>> (k + 1)) + (val.toNat >>> k) % 2 = val.toNat >>> k := by
      rw [Nat.shiftRight_succ]
      exact Nat.div_add_mod _ 2
    calc extend (val.toNat >>> (k + 1)) (bitsBelow val (k + 1))
        = extend (2 * (val.toNat >>> (k + 1)) + (val.toNat >>> k) % 2) (bitsBelow val k) := by
          rw [bitsBelow, List.range_succ, List.reverse_concat, List.map_cons, extend_cons, hbit, bitsBelow]
      _ = extend (val.toNat >>> k) (bitsBelow val k) := by rw [hpart]
      _ = val.toNat := ih (by omega)

/-- the bits of a byte stand for it -/
theorem extend_bits (val : UInt8) : extend 0 (bits val) = val.toNat := by
  have hnone : val.toNat >>> 8 = 0 := Nat.shiftRight_eq_zero _ _ val.toNat_lt
  have h := extend_bitsBelow val (Nat.le_refl 8)
  rwa [hnone] at h

/-- the digits of a byte are decimal and stand for it -/
theorem value_digits (val : UInt8) : (digits val).Decimal ∧ (digits val).value = val.toNat := by
  have hbyte := val.toNat_lt
  have hzero : (⟨0, 0, 0⟩ : Digits).Decimal := ⟨by decide, by decide, by decide⟩
  have hbits : extend (⟨0, 0, 0⟩ : Digits).value (bits val) = val.toNat := extend_bits val
  rw [← hbits]
  exact value_foldl_shiftIn (fun _ => toNat_le_one_of_mem_bits) hzero (by omega)

/-! ## Packing -/

theorem toNat_lowNibble (w : UInt16) : (lowNibble w).toNat = w.toNat % 16 :=
  Nat.and_two_pow_sub_one_eq_mod w.toNat 4

theorem toNat_pack {ds : Digits} (h : ds.Decimal) :
    (pack ds).toNat = 256 * ds.hundreds.toNat + 16 * ds.tens.toNat + ds.ones.toNat := by
  obtain ⟨hhundreds, htens, hones⟩ := h
  have hlow : ds.tens.toNat <<< 4 ||| ds.ones.toNat = 16 * ds.tens.toNat + ds.ones.toNat := by
    rw [← Nat.shiftLeft_add_eq_or_of_lt (by omega), Nat.shiftLeft_eq, Nat.mul_comm]
  have hall : ds.hundreds.toNat <<< 8 ||| (16 * ds.tens.toNat + ds.ones.toNat) =
      256 * ds.hundreds.toNat + (16 * ds.tens.toNat + ds.ones.toNat) := by
    rw [← Nat.shiftLeft_add_eq_or_of_lt (by omega), Nat.shiftLeft_eq, Nat.mul_comm]
  have height : (ds.hundreds <<< 8).toNat = ds.hundreds.toNat <<< 8 := by
    rw [UInt16.toNat_shiftLeft]
    exact Nat.mod_eq_of_lt (by simp [Nat.shiftLeft_eq]; omega)
  have hfour : (ds.tens <<< 4).toNat = ds.tens.toNat <<< 4 := by
    rw [UInt16.toNat_shiftLeft]
    exact Nat.mod_eq_of_lt (by simp [Nat.shiftLeft_eq]; omega)
  rw [pack, UInt16.toNat_or, UInt16.toNat_or, height, hfour, Nat.or_assoc, hlow, hall, Nat.add_assoc]

/-- what is packed comes out again -/
theorem unpack_pack {ds : Digits} (h : ds.Decimal) :
    unpack (pack ds) = [ds.hundreds.toUInt8, ds.tens.toUInt8, ds.ones.toUInt8] := by
  have hpack := toNat_pack h
  obtain ⟨hhundreds, htens, hones⟩ := h
  have outHundreds : lowNibble (pack ds >>> 8) = ds.hundreds := by
    rw [← UInt16.toNat_inj, toNat_lowNibble, UInt16.toNat_shiftRight, hpack]
    simp [Nat.shiftRight_eq_div_pow]
    omega
  have outTens : lowNibble (pack ds >>> 4) = ds.tens := by
    rw [← UInt16.toNat_inj, toNat_lowNibble, UInt16.toNat_shiftRight, hpack]
    simp [Nat.shiftRight_eq_div_pow]
    omega
  have outOnes : lowNibble (pack ds) = ds.ones := by
    rw [← UInt16.toNat_inj, toNat_lowNibble, hpack]
    omega
  rw [unpack, outHundreds, outTens, outOnes]

/-- three bytes are the decimal digits of a byte -/
structure DigitsOf (val h t o : UInt8) : Prop where
  hundreds : h.toNat ≤ 9
  tens : t.toNat ≤ 9
  ones : o.toNat ≤ 9
  value : 100 * h.toNat + 10 * t.toNat + o.toNat = val.toNat

/-- **The bytes that are stored.** -/
theorem unpack_ofByte (val : UInt8) : ∃ h t o, unpack (ofByte val) = [h, t, o] ∧ DigitsOf val h t o := by
  obtain ⟨hdecimal, hvalue⟩ := value_digits val
  unfold ofByte
  -- the digits are not to be worked out
  generalize digits val = ds at hdecimal hvalue
  refine ⟨ds.hundreds.toUInt8, ds.tens.toUInt8, ds.ones.toUInt8, unpack_pack hdecimal, ?_⟩
  obtain ⟨hhundreds, htens, hones⟩ := hdecimal
  have hbyte : ∀ d : UInt16, d.toNat ≤ 9 → d.toUInt8.toNat = d.toNat := by
    intro d hd
    rw [UInt16.toNat_toUInt8]
    omega
  constructor
  case hundreds => rwa [hbyte _ hhundreds]
  case tens => rwa [hbyte _ htens]
  case ones => rwa [hbyte _ hones]
  case value => rwa [hbyte _ hhundreds, hbyte _ htens, hbyte _ hones]

end Bcd

/-! ## Storing -/

namespace Memory

/-- the addresses of a range that lie outside memory -/
def outside (addr : UInt16) (len : Nat) : Set Nat :=
  {a | addr.toNat ≤ a ∧ a < addr.toNat + len ∧ size ≤ a}

/-- a range that is not empty and does not fit faults with its first address outside memory -/
theorem checkRange_eq_error {addr : UInt16} {len : Nat} (hlen : 0 < len) (h : size < addr.toNat + len) :
    ∃ a, IsLeast (outside addr len) a ∧ checkRange addr len = .error (.outOfBounds a) := by
  unfold checkRange
  by_cases hstart : size ≤ addr.toNat
  · refine ⟨addr.toNat, ⟨⟨Nat.le_refl _, by omega, hstart⟩, fun a ha => ha.1⟩, ?_⟩
    exact if_pos hstart
  · refine ⟨size, ⟨⟨by omega, h, Nat.le_refl _⟩, fun a ha => ha.2.2⟩, ?_⟩
    rw [if_neg hstart, if_pos h]

/-- three bytes that were placed inside memory -/
theorem byteAt_place_three {bytes : Vector UInt8 4096} {addr : Nat} (hfits : addr + 3 ≤ size) (h t o : UInt8) (a : Nat) :
    byteAt ⟨place bytes addr [h, t, o]⟩ a =
      if a = addr then h else if a = addr + 1 then t else if a = addr + 2 then o else byteAt ⟨bytes⟩ a := by
  unfold size at hfits
  simp only [place, byteAt_setIfInBounds]
  by_cases hin : a < 4096
  · simp only [hin, and_true]
    grind
  · rw [if_neg (by omega), if_neg (by omega), if_neg (by omega), if_neg (by omega), if_neg (by omega),
      if_neg (by omega)]

end Memory

namespace Machine

/-- the digits are stored when all three addresses lie in memory -/
theorem storeDecimal_of_fits {m : Machine} {x : Register} {h t o : UInt8}
    (hdigits : Bcd.unpack (Bcd.ofByte (m.getV x)) = [h, t, o]) (hfits : m.i.toNat + 3 ≤ Memory.size) :
    m.storeDecimal x = ({ m with memory := ⟨Memory.place m.memory.bytes m.i.toNat [h, t, o]⟩ }, none) := by
  have hcheck : Memory.checkRange m.i 3 = .ok () := (Memory.checkRange_eq_ok_iff m.i 3).2 ⟨by omega, hfits⟩
  have hwrite : m.memory.write m.i [h, t, o] = .ok ⟨Memory.place m.memory.bytes m.i.toNat [h, t, o]⟩ := by
    rw [Memory.write, List.length_cons, List.length_cons, List.length_singleton, hcheck]
    rfl
  rw [storeDecimal, hdigits, hwrite]
  rfl

/-- otherwise the machine stays as it is -/
theorem storeDecimal_of_outside (m : Machine) (x : Register) (h : Memory.size < m.i.toNat + 3) :
    ∃ a, IsLeast (Memory.outside m.i 3) a ∧ m.storeDecimal x = (m, some (.outOfBounds a)) := by
  obtain ⟨a, ha, hcheck⟩ := Memory.checkRange_eq_error (by omega) h
  obtain ⟨d₁, d₂, d₃, hdigits, -⟩ := Bcd.unpack_ofByte (m.getV x)
  refine ⟨a, ha, ?_⟩
  rw [storeDecimal, hdigits, Memory.write, List.length_cons, List.length_cons, List.length_singleton, hcheck]
  rfl

end Machine

theorem Instruction.decode_decimal (x : Register) : decode (Opcode.ofDigits 0xF x 3 3) = some (.decimal x) := by
  unfold decode
  rw [Opcode.named_fifteen, Opcode.x_ofDigits]
  rfl

variable {σ : Type} [Input σ]

/-- **A byte in decimal.** Take LD B, Vx on any machine. It goes well exactly when I is at most 4093. Then the bytes at
I, I+1 and I+2 are the decimal digits of Vx, hundreds first, and nothing else is different. Otherwise the fault names
the first of the three addresses that lies outside memory, and nothing at all is different, also when only the last of
them lies there. -/
theorem decimal_store (m : Machine) (x : Register) (dev : σ) :
    ∃ ins, Instruction.decode (Opcode.ofDigits 0xF x 3 3) = some ins ∧
      let out := (execute ins m dev).val
      (out.fault = none ↔ m.i.toNat ≤ 4093) ∧
      (m.i.toNat ≤ 4093 → ∃ h t o, Bcd.DigitsOf (m.getV x) h t o ∧
        out.machine = { m with memory := out.machine.memory } ∧
        ∀ a, out.machine.memory.byteAt a =
          if a = m.i.toNat then h else if a = m.i.toNat + 1 then t else if a = m.i.toNat + 2 then o
          else m.memory.byteAt a) ∧
      (4093 < m.i.toNat → ∃ a, IsLeast (Memory.outside m.i 3) a ∧
        out.fault = some (.outOfBounds a) ∧ out.machine = m) ∧
      out.input = dev ∧ (execute ins m dev).notes = [] := by
  refine ⟨.decimal x, Instruction.decode_decimal x, ?_⟩
  intro out
  have hsize : Memory.size = 4096 := rfl
  have hmachine : out.machine = (m.storeDecimal x).1 := rfl
  have hfault : out.fault = (m.storeDecimal x).2 := rfl
  by_cases hfits : m.i.toNat ≤ 4093
  · obtain ⟨h, t, o, hdigits, hof⟩ := Bcd.unpack_ofByte (m.getV x)
    have hstored := Machine.storeDecimal_of_fits hdigits (by omega)
    rw [hstored] at hmachine hfault
    refine ⟨?_, ?_, ?_, rfl, rfl⟩
    · simp [hfault, hfits]
    · intro _
      refine ⟨h, t, o, hof, by rw [hmachine], ?_⟩
      intro a
      rw [hmachine]
      exact Memory.byteAt_place_three (by omega) h t o a
    · intro hout
      exact absurd hfits (Nat.not_le.2 hout)
  · obtain ⟨a, ha, hstored⟩ := m.storeDecimal_of_outside x (by omega)
    rw [hstored] at hmachine hfault
    refine ⟨?_, ?_, ?_, rfl, rfl⟩
    · simp [hfault, hfits]
    · intro hin
      exact absurd hin hfits
    · intro _
      exact ⟨a, ha, hfault, hmachine⟩

/-- LD B, V5 with 254 in V5: at 0x300 the digits 2, 5 and 4; with I two bytes before the end of memory nothing at all. -/
theorem two_five_four :
    let m := (Machine.fresh .disabled (.ofSeed 0)).setV 5 254
    let inside := (execute (.decimal 5) { m with i := 0x300 } (HeldKeys.ofKeys [] [])).val
    let edge := (execute (.decimal 5) { m with i := 0xFFE } (HeldKeys.ofKeys [] [])).val
    inside.fault = none ∧ [0x300, 0x301, 0x302].map inside.machine.memory.byteAt = [2, 5, 4] ∧
      edge.fault = some (.outOfBounds 4096) ∧ edge.machine = { m with i := 0xFFE } := by
  intro m inside edge
  obtain ⟨ins, hdecode, hok, hstored, -⟩ := decimal_store { m with i := 0x300 } 5 (HeldKeys.ofKeys [] [])
  obtain ⟨ins', hdecode', -, -, houtside, -⟩ := decimal_store { m with i := 0xFFE } 5 (HeldKeys.ofKeys [] [])
  cases (Instruction.decode_decimal 5).symm.trans hdecode
  cases (Instruction.decode_decimal 5).symm.trans hdecode'
  obtain ⟨h, t, o, hdigits, -, hbytes⟩ := hstored (by decide)
  obtain ⟨a, ⟨⟨-, hend, hsize⟩, -⟩, hfault, hmachine⟩ := houtside (by decide)
  have hlast : a = 4096 := by
    have hend : a < 4097 := hend
    have hsize : 4096 ≤ a := hsize
    omega
  refine ⟨hok.2 (by decide), ?_, hlast ▸ hfault, hmachine⟩
  obtain ⟨hhundreds, htens, hones, hvalue⟩ := hdigits
  have hvalue : 100 * h.toNat + 10 * t.toNat + o.toNat = 254 := hvalue
  obtain rfl : h = 2 := UInt8.toNat_inj.1 (show h.toNat = 2 by omega)
  obtain rfl : t = 5 := UInt8.toNat_inj.1 (show t.toNat = 5 by omega)
  obtain rfl : o = 4 := UInt8.toNat_inj.1 (show o.toNat = 4 by omega)
  show [inside.machine.memory.byteAt 0x300, inside.machine.memory.byteAt 0x301, inside.machine.memory.byteAt 0x302] = _
  rw [hbytes, hbytes, hbytes]
  rfl

end Chip8
