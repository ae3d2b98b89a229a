/-
Block transfers: storing the registers V0 to Vx in memory, and loading them from there. Both walk the registers upwards,
one address for each, and stop at the first address outside memory (`transfer`). Addresses are words that wrap around,
but no transfer gets so far: it starts at I and stops at the end of memory, or at once when I lies beyond it.

Results:
- `transfer_lowest`: a transfer moves the registers whose addresses lie in memory, and fails when there are others;
- `storeRegisters_upTo`, `loadRegisters_upTo`: storing and loading are transfers;
- `byteAt_storeRegisters`, `getV_loadRegisters`: what they leave in memory and in the registers.
-/
import Mathlib.Data.List.FinRange
import Chip8.Execute

namespace Chip8

theorem Memory.checkRange_one (addr : UInt16) : checkRange addr 1 =
    if addr.toNat < size then .ok () else .error (.outOfBounds addr.toNat) := by
  unfold checkRange
  by_cases h : addr.toNat < size
  · rw [if_neg (by omega), if_neg (by omega), if_pos h]
  · rw [if_pos (by omega), if_neg h]

namespace Machine

/-! ## Transfers -/

/-- the `n` lowest registers -/
def lowest (n : Nat) : List Register :=
  (List.finRange 16).take n

theorem mem_lowest {n : Nat} {r : Register} : r ∈ lowest n ↔ r.val < n := by
  rw [lowest, List.mem_take_iff_getElem]
  simp only [List.getElem_finRange, List.length_finRange]
  constructor
  · rintro ⟨k, hk, rfl⟩
    exact Nat.lt_of_lt_of_le hk (Nat.min_le_left _ _)
  · intro h
    exact ⟨r.val, by have := r.isLt; omega, rfl⟩

theorem lowest_succ {n : Nat} (h : n < 16) : lowest (n + 1) = lowest n ++ [⟨n, h⟩] := by
  rw [lowest, List.take_add_one, List.getElem?_eq_getElem (by simpa using h)]
  simp [lowest]

/-- move registers one after the other, up to the first whose address lies outside memory -/
def transfer (move : Machine → Register → Machine) (m : Machine) : List Register → Machine × Option Fault
  | [] => (m, none)
  | r :: rs =>
    if (m.slot r).toNat < Memory.size then transfer move (move m r) rs
    else (m, some (.outOfBounds (m.slot r).toNat))

variable {move : Machine → Register → Machine}

theorem transfer_append_of_none {m : Machine} {rs : List Register} (h : (m.transfer move rs).2 = none)
    (rs' : List Register) : m.transfer move (rs ++ rs') = (m.transfer move rs).1.transfer move rs' := by
  induction rs generalizing m with
  | nil => rfl
  | cons r rs ih =>
    by_cases hr : (m.slot r).toNat < Memory.size
    · simp only [transfer, List.cons_append, if_pos hr] at h ⊢
      exact ih h
    · simp only [transfer, if_neg hr] at h
      cases h

theorem transfer_append_of_some {m : Machine} {rs : List Register} {f : Fault} (h : (m.transfer move rs).2 = some f)
    (rs' : List Register) : m.transfer move (rs ++ rs') = m.transfer move rs := by
  induction rs generalizing m with
  | nil => cases h
  | cons r rs ih =>
    by_cases hr : (m.slot r).toNat < Memory.size
    · simp only [transfer, List.cons_append, if_pos hr] at h ⊢
      exact ih h
    · simp only [transfer, List.cons_append, if_neg hr]

theorem foldl_i (hi : ∀ m r, (move m r).i = m.i) (m : Machine) (rs : List Register) : (rs.foldl move m).i = m.i := by
  induction rs generalizing m with
  | nil => rfl
  | cons r rs ih => exact (ih (move m r)).trans (hi m r)

/-- as long as the addresses before it lie in memory, the address of a register does not wrap around -/
theorem toNat_slot {m : Machine} {r : Register} (h : m.i.toNat + r.val ≤ Memory.size ∨ r.val = 0) :
    (m.slot r).toNat = m.i.toNat + r.val := by
  have hr : r.val.toUInt16.toNat = r.val := by
    have := r.isLt
    simp
    omega
  have hi := m.i.toNat_lt
  unfold Memory.size at h
  rw [slot, UInt16.toNat_add, hr]
  omega

/-- how many of the `n` lowest registers have an address in memory -/
def room (m : Machine) (n : Nat) : Nat :=
  min n (Memory.size - m.i.toNat)

/-- **Transfers.** Those of the lowest registers are moved that have an address in memory. If there are others, the
fault names the first address outside. -/
theorem transfer_lowest (hi : ∀ m r, (move m r).i = m.i) (m : Machine) {n : Nat} (hn : n ≤ 16) :
    m.transfer move (lowest n) = ((lowest (m.room n)).foldl move m,
      if m.room n = n then none else some (.outOfBounds (max m.i.toNat Memory.size))) := by
  induction n with
  | zero => rw [room, Nat.zero_min]; rfl
  | succ n ih =>
    have ih := ih (by omega)
    rw [lowest_succ (by omega)]
    by_cases hroom : m.room n = n
    · -- all registers so far were moved
      rw [if_pos hroom, hroom] at ih
      have hslot : (((lowest n).foldl move m).slot ⟨n, by omega⟩).toNat = m.i.toNat + n := by
        rw [toNat_slot, foldl_i hi]
        rw [foldl_i hi]
        unfold room Memory.size at *
        show m.i.toNat + n ≤ 4096 ∨ n = 0
        omega
      rw [transfer_append_of_none (by rw [ih]), ih, transfer, transfer, hslot]
      by_cases hlt : m.i.toNat + n < Memory.size
      · have hnext : m.room (n + 1) = n + 1 := by unfold room; omega
        rw [if_pos hlt, if_pos hnext, hnext, lowest_succ (by omega), List.foldl_append]
        rfl
      · have hnext : m.room (n + 1) = n := by unfold room at *; omega
        have haddr : m.i.toNat + n = max m.i.toNat Memory.size := by unfold room at *; omega
        rw [if_neg hlt, hnext, if_neg (by omega), haddr]
    · -- a register before this one had no address in memory
      have hnext : m.room (n + 1) = m.room n := by unfold room at *; omega
      have hle : m.room n ≤ n := Nat.min_le_left _ _
      rw [if_neg hroom] at ih
      rw [transfer_append_of_some (by rw [ih]), ih, hnext, if_neg (by omega)]

/-! ## Storing -/

/-- one register to its address -/
def storeOne (m : Machine) (r : Register) : Machine :=
  { m with memory := ⟨Memory.place m.memory.bytes (m.slot r).toNat [m.getV r]⟩ }

theorem storeRegisters_eq_transfer (m : Machine) (rs : List Register) :
    m.storeRegisters rs = m.transfer storeOne rs := by
  induction rs generalizing m with
  | nil => rfl
  | cons r rs ih =>
    rw [storeRegisters, transfer, Memory.writeByte, Memory.write, List.length_singleton, Memory.checkRange_one]
    by_cases h : (m.slot r).toNat < Memory.size
    · rw [if_pos h, if_pos h]
      exact ih (m.storeOne r)
    · rw [if_neg h, if_neg h]
      rfl

theorem storeOne_i (m : Machine) (r : Register) : (m.storeOne r).i = m.i := rfl

theorem foldl_storeOne_v (m : Machine) (rs : List Register) : (rs.foldl storeOne m).v = m.v := by
  induction rs generalizing m with
  | nil => rfl
  | cons r rs ih => exact ih (m.storeOne r)

theorem byteAt_foldl_storeOne (m : Machine) {k : Nat} (hk : k ≤ 16) (h : m.i.toNat + k ≤ Memory.size ∨ k = 0)
    (a : Nat) : ((lowest k).foldl storeOne m).memory.byteAt a =
      if m.i.toNat ≤ a ∧ a < m.i.toNat + k then m.getV (Fin.ofNat 16 (a - m.i.toNat)) else m.memory.byteAt a := by
  induction k with
  | zero =>
    rw [if_neg (by omega)]
    rfl
  | succ k ih =>
    have hsize : Memory.size = 4096 := rfl
    let stored := (lowest k).foldl storeOne m
    have hslot : (stored.slot ⟨k, hk⟩).toNat = m.i.toNat + k := by
      rw [toNat_slot (by rw [foldl_i storeOne_i]; show _ + k ≤ _ ∨ k = 0; omega), foldl_i storeOne_i]
    have hv : stored.getV ⟨k, hk⟩ = m.getV ⟨k, hk⟩ := by simp only [getV, stored, foldl_storeOne_v]
    rw [lowest_succ hk, List.foldl_append]
    show Memory.byteAt ⟨Memory.place stored.memory.bytes (stored.slot ⟨k, hk⟩).toNat [stored.getV ⟨k, hk⟩]⟩ a = _
    rw [Memory.byteAt_place, hslot, hv, List.length_singleton]
    by_cases ha : a = m.i.toNat + k
    · have hlast : Fin.ofNat 16 (a - m.i.toNat) = ⟨k, hk⟩ := by
        apply Fin.ext
        show (a - m.i.toNat) % 16 = k
        omega
      rw [if_pos (by omega), if_pos (by omega), hlast, ha, Nat.sub_self]
      rfl
    · rw [if_neg (by omega), ih (by omega) (by omega)]
      by_cases hin : m.i.toNat ≤ a ∧ a < m.i.toNat + k
      · rw [if_pos hin, if_pos (by omega)]
      · rw [if_neg hin, if_neg (by omega)]

theorem room_le (m : Machine) (x : Register) : m.room (x.val + 1) ≤ 16 := by
  have := x.isLt
  exact Nat.le_trans (Nat.min_le_left _ _) (by omega)

theorem room_inside (m : Machine) (n : Nat) : m.i.toNat + m.room n ≤ Memory.size ∨ m.room n = 0 := by
  unfold room
  omega

/-- **Storing** leaves V0, V1 and so on from I on, up to Vx or the end of memory, and nothing else in memory changes. -/
theorem byteAt_storeRegisters (m : Machine) (x : Register) (a : Nat) :
    (m.storeRegisters (upTo x)).1.memory.byteAt a =
      if m.i.toNat ≤ a ∧ a < m.i.toNat + m.room (x.val + 1) then m.getV (Fin.ofNat 16 (a - m.i.toNat))
      else m.memory.byteAt a := by
  have htransfer : m.storeRegisters (upTo x) = m.transfer storeOne (lowest (x.val + 1)) :=
    storeRegisters_eq_transfer m _
  rw [htransfer, transfer_lowest storeOne_i m (by omega)]
  exact byteAt_foldl_storeOne m (m.room_le x) (m.room_inside _) a

/-! ## Loading -/

/-- one register from its address -/
def loadOne (m : Machine) (r : Register) : Machine :=
  m.setV r (m.memory.byteAt (m.slot r).toNat)

theorem loadRegisters_eq_transfer (m : Machine) (rs : List Register) :
    m.loadRegisters rs = m.transfer loadOne rs := by
  induction rs generalizing m with
  | nil => rfl
  | cons r rs ih =>
    rw [loadRegisters, transfer, Memory.readByte, Memory.checkRange_one]
    by_cases h : (m.slot r).toNat < Memory.size
    · rw [if_pos h, if_pos h]
      exact ih (m.loadOne r)
    · rw [if_neg h, if_neg h]
      rfl

theorem loadOne_i (m : Machine) (r : Register) : (m.loadOne r).i = m.i := rfl

theorem foldl_loadOne_memory (m : Machine) (rs : List Register) : (rs.foldl loadOne m).memory = m.memory := by
  induction rs generalizing m with
  | nil => rfl
  | cons r rs ih => exact ih (m.loadOne r)

theorem getV_foldl_loadOne (m : Machine) {k : Nat} (hk : k ≤ 16) (h : m.i.toNat + k ≤ Memory.size ∨ k = 0)
    (r : Register) : ((lowest k).foldl loadOne m).getV r =
      if r.val < k then m.memory.byteAt (m.i.toNat + r.val) else m.getV r := by
  induction k with
  | zero =>
    rw [if_neg (by omega)]
    rfl
  | succ k ih =>
    let loaded := (lowest k).foldl loadOne m
    have hslot : (loaded.slot ⟨k, hk⟩).toNat = m.i.toNat + k := by
      rw [toNat_slot (by rw [foldl_i loadOne_i]; show _ + k ≤ _ ∨ k = 0; omega), foldl_i loadOne_i]
    rw [lowest_succ hk, List.foldl_append]
    show (loaded.setV ⟨k, hk⟩ (loaded.memory.byteAt (loaded.slot ⟨k, hk⟩).toNat)).getV r = _
    rw [getV_setV, hslot, foldl_loadOne_memory, ih (by omega) (by omega)]
    by_cases hr : r = ⟨k, hk⟩
    · subst hr
      rw [if_pos rfl, if_pos (Nat.lt_succ_self k)]
    · have hne : r.val ≠ k := fun e => hr (Fin.ext e)
      rw [if_neg hr]
      by_cases hlt : r.val < k
      · rw [if_pos hlt, if_pos (by omega)]
      · rw [if_neg hlt, if_neg (by omega)]

/-- **Loading** leaves the bytes from I on in V0, V1 and so on, up to Vx or the end of memory, and no other register
changes. -/
theorem getV_loadRegisters (m : Machine) (x r : Register) :
    (m.loadRegisters (upTo x)).1.getV r =
      if r.val < m.room (x.val + 1) then m.memory.byteAt (m.i.toNat + r.val) else m.getV r := by
  have htransfer : m.loadRegisters (upTo x) = m.transfer loadOne (lowest (x.val + 1)) :=
    loadRegisters_eq_transfer m _
  rw [htransfer, transfer_lowest loadOne_i m (by omega)]
  exact getV_foldl_loadOne m (m.room_le x) (m.room_inside _) r

end Machine

end Chip8
