/-
Slices of memory, with the arithmetic of machine words. The check asks for the start first, so a start outside memory is
reported whatever the length is. With a start inside memory, a length that takes the end beyond the words gets past no
build: with the one the sum brings the program down, and with the other one the end is found inside memory, but before
the start, and the cut brings it down.

Results:
- `add_of_lt`, `add_of_le`: sums that are words, and sums that are not;
- `borrow_of_fits`, `borrow_of_outside`, `borrow_of_beyond`, `borrow_of_overflow`: what comes of a slice;
- `slice_eq_read`, `fill_eq_borrow`, `write_eq_borrow`: memory is read and written through windows;
- `borrow_exact`: which slices there are;
- `end_beyond_words`: one that should be refused, and brings the program down.
-/
import Chip8.Proofs.BareMachine

namespace Chip8.Memory

/-! ## Sums of words -/

theorem Overflow.add_of_lt (o : Overflow) {a b : UInt64} (h : a.toNat + b.toNat < UInt64.size) :
    ∃ c, o.add a b = .ok c ∧ c.toNat = a.toNat + b.toNat := by
  refine ⟨a + b, ?_, ?_⟩
  · cases o with
    | trap => exact if_pos h
    | wrap => rfl
  · rw [UInt64.toNat_add]
    exact Nat.mod_eq_of_lt h

/-- a sum that is no word brings the program down, or else it is less than what was added -/
theorem Overflow.add_of_le (o : Overflow) {a b : UInt64} (h : UInt64.size ≤ a.toNat + b.toNat) :
    (o = .trap ∧ o.add a b = .error .addOverflow) ∨
      (o = .wrap ∧ ∃ c, o.add a b = .ok c ∧ c.toNat = a.toNat + b.toNat - UInt64.size ∧ c.toNat < a.toNat) := by
  cases o with
  | trap => exact .inl ⟨rfl, if_neg (Nat.not_lt.2 h)⟩
  | wrap =>
    have ha := a.toNat_lt
    have hb := b.toNat_lt
    have hsum : (a + b).toNat = a.toNat + b.toNat - UInt64.size := by
      rw [UInt64.toNat_add]
      unfold UInt64.size at h ⊢
      omega
    refine .inr ⟨rfl, a + b, rfl, hsum, ?_⟩
    rw [hsum]
    unfold UInt64.size at h ⊢
    omega

/-! ## What comes of a slice -/

/-- what memory holds when other bytes stand in the window -/
def Window.put (w : Window) (data : List UInt8) : List UInt8 :=
  w.before ++ data ++ w.behind

/-- the slice in natural numbers -/
def window (m : Memory) (start len : Nat) : Window :=
  ⟨m.bytes.toList.take start, (m.bytes.toList.drop start).take len, m.bytes.toList.drop (start + len)⟩

/-- how a program goes down at a range that begins inside memory and ends at no word -/
def Overflow.panic (o : Overflow) (start len : Nat) : Panic :=
  match o with
  | trap => .addOverflow
  | wrap => .sliceOrder start (start + len - UInt64.size)

section

variable (o : Overflow) (m : Memory) {addr : UInt16} {len : UInt64}

theorem borrow_of_outside (hstart : 4096 ≤ addr.toNat) :
    m.borrow o addr len = .ok (.error (.outOfBounds addr.toNat)) := by
  have hcheck : checkWords o addr.toUInt64 len = .ok (.error (.outOfBounds addr.toNat)) := by
    rw [checkWords, if_pos, UInt16.toNat_toUInt64]
    rw [ge_iff_le, UInt64.le_iff_toNat_le, UInt16.toNat_toUInt64]
    exact hstart
  rw [borrow, hcheck]
  rfl

/-- the check, for a start inside memory -/
theorem checkWords_of_lt (hstart : addr.toNat < 4096) :
    checkWords o addr.toUInt64 len = (o.add addr.toUInt64 len).map fun stop =>
      if stop > 4096 then .error (.outOfBounds size) else .ok () := by
  rw [checkWords, if_neg]
  · cases o.add addr.toUInt64 len <;> rfl
  · rw [ge_iff_le, UInt64.le_iff_toNat_le, UInt16.toNat_toUInt64]
    exact Nat.not_le.2 hstart

/-- with a start inside memory and an end that the check lets pass, the cut decides -/
theorem borrow_of_le {stop : UInt64} (hstart : addr.toNat < 4096) (hadd : o.add addr.toUInt64 len = .ok stop)
    (hstop : stop.toNat ≤ 4096) :
    m.borrow o addr len = (Window.cut m.bytes.toList addr.toUInt64 stop).map .ok := by
  have hinside : ¬ stop > 4096 := by
    rw [gt_iff_lt, UInt64.lt_iff_toNat_lt]
    exact Nat.not_lt.2 hstop
  have hcheck : checkWords o addr.toUInt64 len = .ok (.ok ()) := by
    rw [checkWords_of_lt o hstart, hadd, Except.map, if_neg hinside]
  rw [borrow, hcheck]
  show ((o.add addr.toUInt64 len).bind fun stop => (Window.cut _ _ stop).bind _) = _
  rw [hadd]
  show (Window.cut m.bytes.toList addr.toUInt64 stop).bind _ = _
  cases Window.cut m.bytes.toList addr.toUInt64 stop <;> rfl

theorem borrow_of_beyond (hstart : addr.toNat < 4096) (hstop : 4096 < addr.toNat + len.toNat)
    (hword : addr.toNat + len.toNat < UInt64.size) : m.borrow o addr len = .ok (.error (.outOfBounds 4096)) := by
  obtain ⟨stop, hadd, hsum⟩ := o.add_of_lt (a := addr.toUInt64) (b := len) (by rwa [UInt16.toNat_toUInt64])
  rw [UInt16.toNat_toUInt64] at hsum
  have hbeyond : stop > 4096 := by
    rw [gt_iff_lt, UInt64.lt_iff_toNat_lt, hsum]
    exact hstop
  rw [borrow, checkWords_of_lt o hstart, hadd, Except.map, if_pos hbeyond]
  rfl

theorem borrow_of_fits (hstart : addr.toNat < 4096) (hstop : addr.toNat + len.toNat ≤ 4096) :
    m.borrow o addr len = .ok (.ok (m.window addr.toNat len.toNat)) := by
  have hword : addr.toUInt64.toNat + len.toNat < UInt64.size := by
    rw [UInt16.toNat_toUInt64]
    unfold UInt64.size
    omega
  obtain ⟨stop, hadd, hsum⟩ := o.add_of_lt hword
  rw [UInt16.toNat_toUInt64] at hsum
  have horder : ¬ addr.toUInt64 > stop := by
    rw [gt_iff_lt, UInt64.lt_iff_toNat_lt, hsum, UInt16.toNat_toUInt64]
    exact Nat.not_lt.2 (Nat.le_add_right _ _)
  have hend : ¬ stop.toNat > m.bytes.toList.length := by
    rw [hsum, Vector.length_toList]
    exact Nat.not_lt.2 hstop
  rw [borrow_of_le o m hstart hadd (hsum ▸ hstop), Window.cut, if_neg horder, if_neg hend, hsum, UInt16.toNat_toUInt64,
    List.drop_take, Nat.add_sub_cancel_left]
  rfl

/-- a range that ends at no word gets past no build -/
theorem borrow_of_overflow (hstart : addr.toNat < 4096) (hword : UInt64.size ≤ addr.toNat + len.toNat) :
    m.borrow o addr len = .error (o.panic addr.toNat len.toNat) := by
  rcases o.add_of_le (a := addr.toUInt64) (b := len) (by rwa [UInt16.toNat_toUInt64]) with
    ⟨rfl, hadd⟩ | ⟨rfl, stop, hadd, hsum, hlt⟩
  · rw [borrow, checkWords_of_lt .trap hstart, hadd]
    rfl
  · -- the end seems to lie inside memory, but it lies before the start
    rw [UInt16.toNat_toUInt64] at hsum hlt
    have horder : addr.toUInt64 > stop := by
      rw [gt_iff_lt, UInt64.lt_iff_toNat_lt, UInt16.toNat_toUInt64]
      exact hlt
    rw [borrow_of_le .wrap m hstart hadd (Nat.le_of_lt (Nat.lt_trans hlt hstart)), Window.cut, if_pos horder, hsum,
      UInt16.toNat_toUInt64]
    rfl

end

/-- the four places where a range can lie -/
theorem range_cases (start len : Nat) :
    4096 ≤ start ∨ (start < 4096 ∧ UInt64.size ≤ start + len) ∨
      (start < 4096 ∧ 4096 < start + len ∧ start + len < UInt64.size) ∨ (start < 4096 ∧ start + len ≤ 4096) := by
  omega

/-- **Slices.** Unless a range ends at no word, its slice is what the check on natural numbers says. -/
theorem borrow_eq (o : Overflow) (m : Memory) {addr : UInt16} {len : UInt64}
    (hword : ¬ (addr.toNat < 4096 ∧ UInt64.size ≤ addr.toNat + len.toNat)) :
    m.borrow o addr len = .ok ((checkRange addr len.toNat).map fun _ => m.window addr.toNat len.toNat) := by
  have hsize : size = 4096 := rfl
  rcases range_cases addr.toNat len.toNat with hstart | hover | ⟨hstart, hstop, hlt⟩ | ⟨hstart, hstop⟩
  · rw [borrow_of_outside o m hstart, checkRange, if_pos (by omega)]
    rfl
  · exact absurd hover hword
  · rw [borrow_of_beyond o m hstart hstop hlt, checkRange, if_neg (by omega), if_pos (by omega)]
    rfl
  · have hcheck : checkRange addr len.toNat = .ok () := (checkRange_eq_ok_iff addr len.toNat).2 ⟨hstart, hstop⟩
    rw [borrow_of_fits o m hstart hstop, hcheck]
    rfl

/-! ## Memory through windows -/

section

variable (o : Overflow) (m : Memory) {addr : UInt16} {len : UInt64}

theorem slice_eq_read (hword : ¬ (addr.toNat < 4096 ∧ UInt64.size ≤ addr.toNat + len.toNat)) :
    m.slice o addr len = .ok (m.read addr len.toNat) := by
  rw [slice, borrow_eq o m hword, read]
  cases hcheck : checkRange addr len.toNat with
  | error f => rfl
  | ok u =>
    have hbytes : (m.window addr.toNat len.toNat).bytes = (List.range len.toNat).map fun k => m.byteAt (addr.toNat + k) :=
      Bare.take_drop_bytes ((checkRange_eq_ok_iff addr len.toNat).1 hcheck).2
    exact congrArg (fun bytes => Except.ok (Except.ok bytes)) hbytes

/-- placed bytes fill the window of their length -/
theorem toList_place_eq_put {data : List UInt8} (hlen : data.length = len.toNat)
    (hstop : addr.toNat + len.toNat ≤ 4096) :
    (place m.bytes addr.toNat data).toList = (m.window addr.toNat len.toNat).put data := by
  rw [Bare.toList_place (hlen ▸ hstop), hlen]
  rfl

/-- bytes are written through the window of their length, unless it ends at no word -/
theorem write_eq_borrow {data : List UInt8} (hlen : data.length = len.toNat)
    (hword : ¬ (addr.toNat < 4096 ∧ UInt64.size ≤ addr.toNat + len.toNat)) :
    (m.borrow o addr len).map (Except.map fun w => w.put data) =
      .ok ((m.write addr data).map fun m' => m'.bytes.toList) := by
  rw [borrow_eq o m hword, write, hlen]
  cases hcheck : checkRange addr len.toNat with
  | error f => rfl
  | ok u =>
    have hplaced := m.toList_place_eq_put hlen ((checkRange_eq_ok_iff addr len.toNat).1 hcheck).2
    exact congrArg (fun bytes => Except.ok (Except.ok bytes)) hplaced.symm

/-- a fill writes one byte all over its window -/
theorem fill_eq_borrow (b : UInt8) :
    (m.fill o addr len b).map (Except.map fun m' => m'.bytes.toList) =
      (m.borrow o addr len).map (Except.map fun w => w.put (List.replicate len.toNat b)) := by
  rw [fill]
  by_cases hword : addr.toNat < 4096 ∧ UInt64.size ≤ addr.toNat + len.toNat
  · rw [borrow_of_overflow o m hword.1 hword.2]
    rfl
  · rw [borrow_eq o m hword]
    cases hcheck : checkRange addr len.toNat with
    | error f => rfl
    | ok u =>
      have hplaced := m.toList_place_eq_put (List.length_replicate (a := b))
        ((checkRange_eq_ok_iff addr len.toNat).1 hcheck).2
      exact congrArg (fun bytes => Except.ok (Except.ok bytes)) hplaced

end

/-! ## Which slices there are -/

section

variable (o : Overflow) (m : Memory) {addr : UInt16} {len : UInt64}

theorem borrow_eq_ok_iff {w : Window} : m.borrow o addr len = .ok (.ok w) ↔
    (addr.toNat < 4096 ∧ addr.toNat + len.toNat ≤ 4096) ∧ w = m.window addr.toNat len.toNat := by
  rcases range_cases addr.toNat len.toNat with hstart | ⟨hstart, hword⟩ | ⟨hstart, hstop, hword⟩ | ⟨hstart, hstop⟩
  · simp [borrow_of_outside o m hstart, Nat.not_lt.2 hstart]
  · have hbeyond : ¬ addr.toNat + len.toNat ≤ 4096 := by unfold UInt64.size at hword; omega
    simp [borrow_of_overflow o m hstart hword, hbeyond]
  · simp [borrow_of_beyond o m hstart hstop hword, Nat.not_le.2 hstop]
  · simp [borrow_of_fits o m hstart hstop, hstart, hstop, eq_comm]

theorem borrow_eq_fault_iff {f : Fault} : m.borrow o addr len = .ok (.error f) ↔
    (4096 ≤ addr.toNat ∧ f = .outOfBounds addr.toNat) ∨ (addr.toNat < 4096 ∧ 4096 < addr.toNat + len.toNat ∧
      addr.toNat + len.toNat < UInt64.size ∧ f = .outOfBounds 4096) := by
  rcases range_cases addr.toNat len.toNat with hstart | ⟨hstart, hword⟩ | ⟨hstart, hstop, hword⟩ | ⟨hstart, hstop⟩
  · simp [borrow_of_outside o m hstart, hstart, Nat.not_lt.2 hstart, eq_comm]
  · simp [borrow_of_overflow o m hstart hword, Nat.not_le.2 hstart, Nat.not_lt.2 hword]
  · simp [borrow_of_beyond o m hstart hstop hword, hstart, hstop, hword, Nat.not_le.2 hstart, eq_comm]
  · simp [borrow_of_fits o m hstart hstop, Nat.not_le.2 hstart, Nat.not_lt.2 hstop]

theorem borrow_eq_panic_iff {p : Panic} : m.borrow o addr len = .error p ↔
    addr.toNat < 4096 ∧ UInt64.size ≤ addr.toNat + len.toNat ∧ p = o.panic addr.toNat len.toNat := by
  rcases range_cases addr.toNat len.toNat with hstart | ⟨hstart, hword⟩ | ⟨hstart, hstop, hword⟩ | ⟨hstart, hstop⟩
  · simp [borrow_of_outside o m hstart, Nat.not_lt.2 hstart]
  · simp [borrow_of_overflow o m hstart hword, hstart, hword, eq_comm]
  · simp [borrow_of_beyond o m hstart hstop hword, Nat.not_le.2 hword]
  · have hword : ¬ UInt64.size ≤ addr.toNat + len.toNat := by unfold UInt64.size; omega
    simp [borrow_of_fits o m hstart hstop, hword]

end

/-- **Slices of memory.** Take any memory, start and length, and a program built either way.
- There is a slice just when its start is inside memory and its end is not beyond the end of memory. It lies between
  what is before its start and what is behind its end, and is of the length that was asked for.
- A start outside memory is the fault, whatever the length is. With a start inside, the fault is the first address
  beyond the end of memory, provided that the end of the range is a word.
- When the start is inside and the end is no word, and only then, the program goes down: at the sum, or at the cut, where
  the end that has wrapped lies before the start.
Memory is filled through the slice, and unless the program goes down it is read and written as the slice says. -/
theorem borrow_exact (o : Overflow) (m : Memory) (addr : UInt16) (len : UInt64) :
    let start := addr.toNat
    let stop := addr.toNat + len.toNat
    let lent := m.borrow o addr len
    ((∃ w, lent = .ok (.ok w)) ↔ start < 4096 ∧ stop ≤ 4096) ∧
    (∀ w, lent = .ok (.ok w) →
      w.before ++ w.bytes ++ w.behind = m.bytes.toList ∧ w.before.length = start ∧ w.bytes.length = len.toNat) ∧
    (∀ f, lent = .ok (.error f) ↔
      (4096 ≤ start ∧ f = .outOfBounds start) ∨
        (start < 4096 ∧ 4096 < stop ∧ stop < UInt64.size ∧ f = .outOfBounds 4096)) ∧
    (∀ p, lent = .error p ↔ start < 4096 ∧ UInt64.size ≤ stop ∧ p = o.panic start len.toNat) ∧
    (∀ b, (m.fill o addr len b).map (Except.map fun m' => m'.bytes.toList) =
      lent.map (Except.map fun w => w.put (List.replicate len.toNat b))) ∧
    ((∀ p, lent ≠ .error p) →
      m.slice o addr len = .ok (m.read addr len.toNat) ∧
      ∀ data, data.length = len.toNat →
        lent.map (Except.map fun w => w.put data) = .ok ((m.write addr data).map fun m' => m'.bytes.toList)) := by
  intro start stop lent
  refine ⟨?_, ?_, fun f => borrow_eq_fault_iff o m, fun p => borrow_eq_panic_iff o m, fun b => fill_eq_borrow o m b, ?_⟩
  · constructor
    · rintro ⟨w, hw⟩
      exact ((borrow_eq_ok_iff o m).1 hw).1
    · intro hfits
      exact ⟨_, (borrow_eq_ok_iff o m).2 ⟨hfits, rfl⟩⟩
  · intro w hw
    obtain ⟨⟨-, hstop⟩, rfl⟩ := (borrow_eq_ok_iff o m).1 hw
    refine ⟨?_, ?_, ?_⟩
    · rw [window, List.append_assoc, ← List.drop_drop, List.take_append_drop, List.take_append_drop]
    · rw [window, List.length_take, Vector.length_toList]
      exact Nat.min_eq_left (Nat.le_trans (Nat.le_add_right _ _) hstop)
    · rw [window, List.length_take, List.length_drop, Vector.length_toList]
      exact Nat.min_eq_left (Nat.le_sub_of_add_le' hstop)
  · intro hstands
    have hword : ¬ (addr.toNat < 4096 ∧ UInt64.size ≤ addr.toNat + len.toNat) := by
      rintro ⟨hstart, hover⟩
      exact hstands _ (borrow_of_overflow o m hstart hover)
    exact ⟨slice_eq_read o m hword, fun data hlen => write_eq_borrow o m hlen hword⟩

/-- The last byte of memory; two bytes there, of which one is outside; nothing at all right behind memory; and starts
outside with lengths beyond all words. -/
theorem last_byte_and_beyond :
    (∃ w, fresh.borrow .trap 4095 1 = .ok (.ok w) ∧ w.before.length = 4095 ∧ w.bytes.length = 1) ∧
    fresh.slice .trap 4095 1 = .ok (fresh.read 4095 1) ∧
    fresh.borrow .wrap 4095 2 = .ok (.error (.outOfBounds 4096)) ∧
    fresh.borrow .trap 4096 0 = .ok (.error (.outOfBounds 4096)) ∧
    fresh.borrow .trap 0xFFFF 0xFFFFFFFFFFFFFFFF = .ok (.error (.outOfBounds 0xFFFF)) := by
  obtain ⟨hfits, hwindow, -, -, -, hread⟩ := borrow_exact .trap fresh 4095 1
  obtain ⟨-, -, hbeyond, -⟩ := borrow_exact .wrap fresh 4095 2
  obtain ⟨-, -, hbehind, -⟩ := borrow_exact .trap fresh 4096 0
  obtain ⟨-, -, houtside, -⟩ := borrow_exact .trap fresh 0xFFFF 0xFFFFFFFFFFFFFFFF
  obtain ⟨w, hw⟩ := hfits.2 (by decide)
  obtain ⟨-, hbefore, hbytes⟩ := hwindow w hw
  have hstands : ∀ p, fresh.borrow .trap 4095 1 ≠ .error p := by
    intro p hp
    rw [hw] at hp
    cases hp
  exact ⟨⟨w, hw, hbefore, hbytes⟩, (hread hstands).1, (hbeyond _).2 (.inr (by decide)), (hbehind _).2 (.inl (by decide)),
    (houtside _).2 (.inl (by decide))⟩

/-- **An end that is no word.** A slice of all but one of the words there are, from address 1 on, is not refused with the
first address beyond memory: the program goes down, built either way. -/
theorem end_beyond_words :
    1 + (0xFFFFFFFFFFFFFFFF : UInt64).toNat > 4096 ∧
    fresh.slice .trap 1 0xFFFFFFFFFFFFFFFF = .error .addOverflow ∧
    fresh.slice .wrap 1 0xFFFFFFFFFFFFFFFF = .error (.sliceOrder 1 0) ∧
    ∀ o, ¬ ∀ (addr : UInt16) (len : UInt64), addr.toNat < 4096 → 4096 < addr.toNat + len.toNat →
      fresh.slice o addr len = .ok (.error (.outOfBounds 4096)) := by
  have hslice : ∀ o, fresh.slice o 1 0xFFFFFFFFFFFFFFFF = .error (o.panic 1 0xFFFFFFFFFFFFFFFF) := by
    intro o
    rw [slice, borrow_of_overflow o fresh (by decide) (by decide)]
    rfl
  refine ⟨by decide, hslice .trap, hslice .wrap, fun o h => ?_⟩
  have hfault := h 1 0xFFFFFFFFFFFFFFFF (by decide) (by decide)
  rw [hslice] at hfault
  cases hfault

end Chip8.Memory
