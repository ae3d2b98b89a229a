/-
Memory as a map from addresses to their last writers. A `Call` is one thing done to a memory. It says which bytes it
puts from which address on; whether it goes well depends on where they lie and not on what memory holds (`Call.Fits`),
and a call that does not go well changes nothing. So after any calls an address holds what the last of those that fit
and cover it put there.

Results:
- `result_eq_ok_iff`: a call that goes well is the write of its bytes;
- `succeeds_iff_fits`: which calls go well;
- `byteAt_after`: what a call leaves at each address;
- `byteAt_performAll`: what calls leave at each address;
- `reads_last_writer`: what is read after them, by bytes and by words.
-/
import Mathlib.Data.List.Induction
import Chip8.Proofs.RangeCheck

namespace Chip8.Memory

/-! ## Calls -/

inductive Call where
  | write (addr : UInt16) (data : List UInt8)
  | writeByte (addr : UInt16) (b : UInt8)
  | writeWord (addr w : UInt16)
  /-- set the `len` bytes from `addr` on to one value, in a program that is built one way or the other -/
  | fill (o : Overflow) (addr : UInt16) (len : UInt64) (b : UInt8)
  | load (program : List UInt8)
  | loadFrom (source : Source)
  deriving DecidableEq, Repr

def result (m : Memory) : Call → Except Panic (Except Fault Memory)
  | .write addr data => .ok (m.write addr data)
  | .writeByte addr b => .ok (m.writeByte addr b)
  | .writeWord addr w => .ok (m.writeWord addr w)
  | .fill o addr len b => m.fill o addr len b
  | .load program => .ok (m.load program)
  | .loadFrom source => .ok (m.loadFrom source)

/-- the memory after a call, whatever came of it -/
def after (m : Memory) (c : Call) : Memory :=
  match m.result c with
  | .ok (.ok m') => m'
  | _ => m

def performAll (cs : List Call) (m : Memory) : Memory :=
  cs.foldl after m

def Succeeds (m : Memory) (c : Call) : Prop :=
  ∃ m', m.result c = .ok (.ok m')

/-! ## What a call puts where -/

namespace Call

def start : Call → UInt16
  | write addr _ | writeByte addr _ | writeWord addr _ | fill _ addr _ _ => addr
  | load _ | loadFrom _ => programStart

/-- the bytes that a call puts into memory, a word with its high byte first -/
def data : Call → List UInt8
  | write _ data => data
  | writeByte _ b => [b]
  | writeWord _ w => [UInt8.ofNat (w.toNat / 256), UInt8.ofNat w.toNat]
  | fill _ _ len b => List.replicate len.toNat b
  | load program => program
  | loadFrom source => source.pieces.flatten

/-- the trouble met before memory is touched, if any -/
def trouble : Call → Option String
  | loadFrom source => source.trouble
  | _ => none

/-- the bytes of a call have arrived and lie inside memory -/
def Fits (c : Call) : Prop :=
  c.trouble = none ∧ c.start.toNat < size ∧ c.start.toNat + c.data.length ≤ size

instance (c : Call) : Decidable c.Fits :=
  inferInstanceAs (Decidable (_ ∧ _))

/-- the byte that a call puts at an address, if it covers it -/
def putAt (c : Call) (a : Nat) : Option UInt8 :=
  if c.start.toNat ≤ a then c.data[a - c.start.toNat]? else none

end Call

/-- the byte that the last call covering an address put there, if any does -/
def lastPut (cs : List Call) (a : Nat) : Option UInt8 :=
  cs.reverse.findSome? fun c => c.putAt a

theorem lastPut_concat (cs : List Call) (c : Call) (a : Nat) :
    lastPut (cs ++ [c]) a = (c.putAt a).or (lastPut cs a) := by
  rw [lastPut, List.reverse_append, List.reverse_singleton, List.singleton_append, List.findSome?_cons]
  cases c.putAt a with
  | none => rfl
  | some b => rfl

/-! ## One call -/

theorem writeWord_eq (m : Memory) (addr w : UInt16) :
    m.writeWord addr w = m.write addr [UInt8.ofNat (w.toNat / 256), UInt8.ofNat w.toNat] := by
  have hhigh : (w >>> 8).toUInt8 = UInt8.ofNat (w.toNat / 256) := by
    apply UInt8.toNat_inj.1
    simp [Nat.shiftRight_eq_div_pow]
  have hlow : w.toUInt8 = UInt8.ofNat w.toNat := by
    apply UInt8.toNat_inj.1
    simp
  rw [writeWord, hhigh, hlow]

theorem fill_eq_ok_iff {o : Overflow} {m m' : Memory} {addr : UInt16} {len : UInt64} {b : UInt8} :
    m.fill o addr len b = .ok (.ok m') ↔ m.write addr (List.replicate len.toNat b) = .ok m' := by
  have hlen : (List.replicate len.toNat b).length = len.toNat := List.length_replicate
  have hsize : size = 4096 := rfl
  rw [fill]
  by_cases hword : addr.toNat < 4096 ∧ UInt64.size ≤ addr.toNat + len.toNat
  · -- the end of the range is no word, so it is far beyond the end of memory
    have hbeyond : ¬ addr.toNat + len.toNat ≤ 4096 := by
      unfold UInt64.size at hword
      omega
    simp [borrow_of_overflow o m hword.1 hword.2, Except.map, write_eq_ok_iff, hlen, hsize, hbeyond]
  · rw [borrow_eq o m hword, write, hlen]
    cases checkRange addr len.toNat <;> simp [Except.map]

theorem load_eq_ok_iff {m m' : Memory} {program : List UInt8} :
    m.load program = .ok m' ↔ m.write programStart program = .ok m' := by
  unfold load
  split
  case isTrue h =>
    have hs : programStart.toNat = 512 := rfl
    simp only [reduceCtorEq, false_iff, write_eq_ok_iff, hs]
    unfold maxProgram at h
    unfold size
    omega
  case isFalse => exact Iff.rfl

theorem loadFrom_eq_ok_iff {m m' : Memory} {source : Source} :
    m.loadFrom source = .ok m' ↔ source.trouble = none ∧ m.load source.pieces.flatten = .ok m' := by
  unfold loadFrom Source.image
  cases source.trouble with
  | none => simp [Except.bind]
  | some text => simp [Except.bind]

/-- **A call that goes well** is the write of its bytes. -/
theorem result_eq_ok_iff {m m' : Memory} {c : Call} :
    m.result c = .ok (.ok m') ↔ c.trouble = none ∧ m.write c.start c.data = .ok m' := by
  cases c with
  | write addr data => simp [result, Call.trouble, Call.start, Call.data]
  | writeByte addr b => simp [result, writeByte, Call.trouble, Call.start, Call.data]
  | writeWord addr w => simp [result, writeWord_eq, Call.trouble, Call.start, Call.data]
  | fill o addr len b => simp [result, fill_eq_ok_iff, Call.trouble, Call.start, Call.data]
  | load program => simp [result, load_eq_ok_iff, Call.trouble, Call.start, Call.data]
  | loadFrom source => simp [result, loadFrom_eq_ok_iff, load_eq_ok_iff, Call.trouble, Call.start, Call.data]

/-- **Which calls go well.** Those that fit, on any memory. -/
theorem succeeds_iff_fits (m : Memory) (c : Call) : m.Succeeds c ↔ c.Fits := by
  simp only [Succeeds, result_eq_ok_iff, write_eq_ok_iff, Call.Fits]
  constructor
  · rintro ⟨m', htrouble, hrange, -⟩
    exact ⟨htrouble, hrange⟩
  · rintro ⟨htrouble, hrange⟩
    exact ⟨_, htrouble, hrange, rfl⟩

/-- a call that does not go well changes nothing -/
theorem after_of_not_succeeds {m : Memory} {c : Call} (h : ¬ m.Succeeds c) : m.after c = m := by
  unfold after
  split
  case h_1 m' hr => exact absurd ⟨m', hr⟩ h
  case h_2 => rfl

/-- what a call puts at an address, as a write leaves it -/
theorem putAt_getD (c : Call) (a : Nat) (b : UInt8) :
    (c.putAt a).getD b =
      if c.start.toNat ≤ a ∧ a < c.start.toNat + c.data.length then c.data.getD (a - c.start.toNat) 0 else b := by
  unfold Call.putAt
  by_cases hs : c.start.toNat ≤ a
  · by_cases he : a < c.start.toNat + c.data.length
    · rw [if_pos hs, if_pos ⟨hs, he⟩, List.getD_eq_getElem?_getD, List.getElem?_eq_getElem (by omega),
        Option.getD_some, Option.getD_some]
    · rw [if_pos hs, if_neg (fun h => he h.2), List.getElem?_eq_none (by omega), Option.getD_none]
  · rw [if_neg hs, if_neg (fun h => hs h.1), Option.getD_none]

/-- **One call.** A call that fits puts its bytes where they go, and nothing else changes. -/
theorem byteAt_after (m : Memory) (c : Call) (a : Nat) :
    (m.after c).byteAt a = if c.Fits then (c.putAt a).getD (m.byteAt a) else m.byteAt a := by
  by_cases hf : c.Fits
  · obtain ⟨m', hr⟩ := (succeeds_iff_fits m c).2 hf
    have hafter : m.after c = m' := by rw [after, hr]
    rw [if_pos hf, hafter, byteAt_write (result_eq_ok_iff.1 hr).2, putAt_getD]
  · rw [if_neg hf, after_of_not_succeeds (fun h => hf ((succeeds_iff_fits m c).1 h))]

/-! ## Many calls -/

/-- **Calls.** After them an address holds what the last of those that fit and cover it put there, and what was there
before if there is none. -/
theorem byteAt_performAll (cs : List Call) (m : Memory) (a : Nat) :
    (performAll cs m).byteAt a = (lastPut (cs.filter fun c => c.Fits) a).getD (m.byteAt a) := by
  induction cs using List.reverseRecOn with
  | nil => rfl
  | append_singleton cs c ih =>
    have hlast : performAll (cs ++ [c]) m = (performAll cs m).after c := by
      rw [performAll, List.foldl_append]
      rfl
    rw [hlast, byteAt_after, ih, List.filter_append]
    by_cases hf : c.Fits
    · have hkept : [c].filter (fun c => c.Fits) = [c] := by simp [hf]
      rw [if_pos hf, hkept, lastPut_concat]
      cases c.putAt a <;> rfl
    · have hdropped : [c].filter (fun c => c.Fits) = [] := by simp [hf]
      rw [if_neg hf, hdropped, List.append_nil]

/-- a new memory holds the glyphs, and zeros above them -/
theorem byteAt_fresh (a : Nat) : fresh.byteAt a = glyphs.getD a 0 := by
  have hlen : glyphs.length = 80 := rfl
  have hzero : byteAt ⟨Vector.replicate 4096 0⟩ a = 0 := by
    unfold byteAt
    rw [Vector.getElem?_replicate]
    split <;> rfl
  rw [fresh, byteAt_place, hzero]
  by_cases ha : a < 80
  · rw [if_pos (by omega), Nat.sub_zero]
  · rw [if_neg (by omega), List.getD_eq_getElem?_getD, List.getElem?_eq_none (by omega), Option.getD_none]

/-! ## Reading -/

theorem readByte_of_lt (m : Memory) {a : UInt16} (h : a.toNat < size) : m.readByte a = .ok (m.byteAt a.toNat) := by
  have hc : checkRange a 1 = .ok () := (checkRange_eq_ok_iff a 1).2 ⟨h, h⟩
  rw [readByte, hc]
  rfl

/-- a word has the byte at its address for its high byte and the one after it for its low byte -/
theorem readWord_of_lt (m : Memory) {a : UInt16} (h : a.toNat + 1 < size) :
    ∃ w, m.readWord a = .ok w ∧ w.toNat = 256 * (m.byteAt a.toNat).toNat + (m.byteAt (a.toNat + 1)).toNat := by
  have hc : checkRange a 2 = .ok () := (checkRange_eq_ok_iff a 2).2 ⟨by omega, h⟩
  refine ⟨_, by rw [readWord, hc]; rfl, ?_⟩
  generalize m.byteAt a.toNat = high
  generalize m.byteAt (a.toNat + 1) = low
  have hhigh := high.toNat_lt
  have hlow := low.toNat_lt
  have hshift : (high.toUInt16 <<< 8).toNat = high.toNat <<< 8 := by
    have h8 : (8 : UInt16).toNat % 16 = 8 := rfl
    rw [UInt16.toNat_shiftLeft, UInt8.toNat_toUInt16, h8, Nat.shiftLeft_eq]
    omega
  -- the two bytes have no bit in common
  rw [UInt16.toNat_or, hshift, UInt8.toNat_toUInt16, ← Nat.shiftLeft_add_eq_or_of_lt hlow, Nat.shiftLeft_eq]
  omega

/-- **Memory is a last-writer map.** After any calls on a new memory:
- each byte is read as the last call that went well and covers its address left it, and as a new memory has it if no
  such call was made;
- each word is read as its two bytes, high byte first.
A call goes well just when it fits, whatever memory holds, and else it changes no byte. -/
theorem reads_last_writer (cs : List Call) :
    let m := performAll cs fresh
    let wentWell := cs.filter fun c => c.Fits
    (∀ a : UInt16, a.toNat < size →
      m.readByte a = .ok ((lastPut wentWell a.toNat).getD (glyphs.getD a.toNat 0))) ∧
    (∀ a : UInt16, a.toNat + 1 < size → ∃ high low w, m.readByte a = .ok high ∧ m.readByte (a + 1) = .ok low ∧
      m.readWord a = .ok w ∧ w.toNat = 256 * high.toNat + low.toNat) ∧
    ∀ (m : Memory) (c : Call), (m.Succeeds c ↔ c.Fits) ∧ (¬ m.Succeeds c → m.after c = m) := by
  intro m wentWell
  refine ⟨?_, ?_, fun m c => ⟨succeeds_iff_fits m c, after_of_not_succeeds⟩⟩
  · intro a ha
    rw [readByte_of_lt m ha, byteAt_performAll, byteAt_fresh]
  · intro a ha
    obtain ⟨w, hread, hval⟩ := readWord_of_lt m ha
    have h1 : (1 : UInt16).toNat = 1 := rfl
    have hnext : (a + 1).toNat = a.toNat + 1 := by
      unfold size at ha
      rw [UInt16.toNat_add, h1]
      omega
    refine ⟨m.byteAt a.toNat, m.byteAt (a.toNat + 1), w, readByte_of_lt m (by omega), ?_, hread, hval⟩
    rw [readByte_of_lt m (hnext ▸ ha), hnext]

/-- a program, a word across its end, then a write, a word and a program that fail, and two that reach the last bytes -/
def overlapping : List Call :=
  [.load [0xAA, 0xBB], .writeWord 0x201 0x1234, .writeByte 0x202 5, .fill .trap 0xFFE 2 7, .write 0xFFE [1, 2, 3],
    .writeWord 0xFFF 0x5678, .loadFrom ⟨[[9, 9]], some "gone"⟩, .writeByte 0xFFF 8]

/-- the calls that go well are the ones that count, the last of them first -/
theorem last_of_overlapping_calls :
    let m := performAll overlapping fresh
    m.readByte 0x200 = .ok 0xAA ∧ m.readByte 0xFFE = .ok 7 ∧ m.readByte 0xFFF = .ok 8 ∧
      (∃ w, m.readWord 0x201 = .ok w ∧ w.toNat = 0x1205) ∧ m.after (.writeWord 0xFFF 0x5678) = m := by
  intro m
  obtain ⟨hbyte, hword, hcall⟩ := reads_last_writer overlapping
  have hfails : ¬ m.Succeeds (.writeWord 0xFFF 0x5678) := fun h => absurd ((hcall m _).1.1 h) (by decide)
  obtain ⟨high, low, w, hhigh, hlow, hread, hval⟩ := hword 0x201 (by decide)
  have hhigh' : high = 0x12 :=
    Except.ok.inj (hhigh.symm.trans ((hbyte 0x201 (by decide)).trans (congrArg Except.ok (by decide))))
  have hlow' : low = 5 :=
    Except.ok.inj (hlow.symm.trans ((hbyte 0x202 (by decide)).trans (congrArg Except.ok (by decide))))
  refine ⟨?_, ?_, ?_, ⟨w, hread, ?_⟩, (hcall m _).2 hfails⟩
  · exact (hbyte 0x200 (by decide)).trans (congrArg Except.ok (by decide))
  · exact (hbyte 0xFFE (by decide)).trans (congrArg Except.ok (by decide))
  · exact (hbyte 0xFFF (by decide)).trans (congrArg Except.ok (by decide))
  · rw [hval, hhigh', hlow']
    rfl

end Chip8.Memory
