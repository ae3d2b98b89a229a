/-
Memory: 4096 bytes, the glyphs of the sixteen hexadecimal digits at the bottom and the program from 0x200. Every access
is checked against the end of memory and reports the first address that lies outside; a write that fails changes
nothing. `byteAt` is the view: `byteAt_write` says what a write leaves at every address. A slice takes a length that is a
machine word, and adds it to its start as machines do (`borrow`). A program arrives in pieces, and `image_ofImage` says
that nothing is lost on the way.
-/
import Chip8.Fault

namespace Chip8

structure Memory where
  bytes : Vector UInt8 4096
  deriving DecidableEq

namespace Memory

def size : Nat := 4096

/-- where a program is loaded -/
def programStart : UInt16 := 0x200

/-- the largest program that fits between `programStart` and the end of memory -/
def maxProgram : Nat := 3584

/-- the glyphs of the digits 0 to F, five rows each -/
def glyphs : List UInt8 :=
  [0xF0, 0x90, 0x90, 0x90, 0xF0,
   0x20, 0x60, 0x20, 0x20, 0x70,
   0xF0, 0x10, 0xF0, 0x80, 0xF0,
   0xF0, 0x10, 0xF0, 0x10, 0xF0,
   0x90, 0x90, 0xF0, 0x10, 0x10,
   0xF0, 0x80, 0xF0, 0x10, 0xF0,
   0xF0, 0x80, 0xF0, 0x90, 0xF0,
   0xF0, 0x10, 0x20, 0x40, 0x40,
   0xF0, 0x90, 0xF0, 0x90, 0xF0,
   0xF0, 0x90, 0xF0, 0x10, 0xF0,
   0xF0, 0x90, 0xF0, 0x90, 0x90,
   0xE0, 0x90, 0xE0, 0x90, 0xE0,
   0xF0, 0x80, 0x80, 0x80, 0xF0,
   0xE0, 0x90, 0x90, 0x90, 0xE0,
   0xF0, 0x80, 0xF0, 0x80, 0xF0,
   0xF0, 0x80, 0xF0, 0x80, 0x80]

/-- where the glyph of a digit lies; only the low four bits of the digit count -/
def glyphAddr (digit : UInt8) : UInt16 :=
  (digit &&& 0x0F).toUInt16 * 5

/-- the byte at an address; zero outside memory -/
def byteAt (m : Memory) (addr : Nat) : UInt8 :=
  m.bytes[addr]?.getD 0

/-- put bytes at consecutive addresses; what falls outside memory is dropped -/
def place (bytes : Vector UInt8 4096) (addr : Nat) : List UInt8 → Vector UInt8 4096
  | [] => bytes
  | b :: bs => place (bytes.setIfInBounds addr b) (addr + 1) bs

theorem byteAt_setIfInBounds (bytes : Vector UInt8 4096) (a : Nat) (b : UInt8) (k : Nat) :
    byteAt ⟨bytes.setIfInBounds a b⟩ k = if k = a ∧ k < 4096 then b else byteAt ⟨bytes⟩ k := by
  unfold byteAt
  rw [Vector.getElem?_setIfInBounds]
  by_cases ha : a = k
  · subst ha
    by_cases hk : a < 4096
    · simp [hk]
    · simp [hk]
  · simp [ha, Ne.symm ha]

/-- placed bytes stand where they were put, up to the end of memory; all others are as before -/
theorem byteAt_place (bytes : Vector UInt8 4096) (a : Nat) (data : List UInt8) (k : Nat) :
    byteAt ⟨place bytes a data⟩ k =
      if a ≤ k ∧ k < a + data.length ∧ k < 4096 then data.getD (k - a) 0 else byteAt ⟨bytes⟩ k := by
  induction data generalizing bytes a with
  | nil =>
    rw [place, if_neg]
    simp only [List.length_nil]
    omega
  | cons b bs ih =>
    rw [place, ih, byteAt_setIfInBounds]
    simp only [List.length_cons]
    by_cases hk : k = a
    · subst hk
      by_cases h4 : k < 4096
      · rw [if_neg (by omega), if_pos ⟨rfl, h4⟩, if_pos (by omega), Nat.sub_self]
        rfl
      · rw [if_neg (by omega), if_neg (by omega), if_neg (by omega)]
    · by_cases hr : a + 1 ≤ k ∧ k < a + 1 + bs.length ∧ k < 4096
      · obtain ⟨m, hm⟩ : ∃ m, k = a + m + 1 := ⟨k - a - 1, by omega⟩
        rw [if_pos hr, if_pos (by omega), hm]
        have e1 : a + m + 1 - (a + 1) = m := by omega
        have e2 : a + m + 1 - a = m + 1 := by omega
        rw [e1, e2]
        rfl
      · rw [if_neg hr, if_neg (by omega), if_neg (by omega)]

/-- zeros, with the glyphs at the bottom -/
def fresh : Memory :=
  ⟨place (Vector.replicate 4096 0) 0 glyphs⟩

/-! ## Checked access -/

/-- are `len` bytes from `addr` inside memory? If not, the fault names the first address outside. -/
@[inline] def checkRange (addr : UInt16) (len : Nat) : Except Fault Unit :=
  if addr.toNat ≥ size then .error (.outOfBounds addr.toNat)
  else if addr.toNat + len > size then .error (.outOfBounds size)
  else .ok ()

theorem checkRange_eq_ok_iff (addr : UInt16) (len : Nat) :
    checkRange addr len = .ok () ↔ addr.toNat < size ∧ addr.toNat + len ≤ size := by
  unfold checkRange
  split
  case isTrue h => simp; omega
  case isFalse h =>
    split
    case isTrue h' => simp; omega
    case isFalse h' => simp; omega

/-- the bytes from `addr` on, `len` of them -/
def read (m : Memory) (addr : UInt16) (len : Nat) : Except Fault (List UInt8) :=
  (checkRange addr len).map fun _ => (List.range len).map fun k => m.byteAt (addr.toNat + k)

@[inline] def write (m : Memory) (addr : UInt16) (data : List UInt8) : Except Fault Memory :=
  (checkRange addr data.length).map fun _ => ⟨place m.bytes addr.toNat data⟩

theorem write_eq_ok_iff {m m' : Memory} {addr : UInt16} {data : List UInt8} :
    m.write addr data = .ok m' ↔
      (addr.toNat < size ∧ addr.toNat + data.length ≤ size) ∧ m' = ⟨place m.bytes addr.toNat data⟩ := by
  rw [← checkRange_eq_ok_iff, write]
  cases checkRange addr data.length with
  | error f => simp [Except.map]
  | ok u => simp [Except.map, eq_comm]

/-- what a successful write leaves at each address -/
theorem byteAt_write {m m' : Memory} {addr : UInt16} {data : List UInt8} (h : m.write addr data = .ok m') (k : Nat) :
    m'.byteAt k =
      if addr.toNat ≤ k ∧ k < addr.toNat + data.length then data.getD (k - addr.toNat) 0 else m.byteAt k := by
  obtain ⟨⟨-, hend⟩, rfl⟩ := write_eq_ok_iff.1 h
  unfold size at hend
  rw [byteAt_place]
  by_cases hk : addr.toNat ≤ k ∧ k < addr.toNat + data.length
  · rw [if_pos hk, if_pos ⟨hk.1, hk.2, by omega⟩]
  · rw [if_neg hk, if_neg fun h' => hk ⟨h'.1, h'.2.1⟩]

def readByte (m : Memory) (addr : UInt16) : Except Fault UInt8 :=
  (checkRange addr 1).map fun _ => m.byteAt addr.toNat

@[inline] def writeByte (m : Memory) (addr : UInt16) (b : UInt8) : Except Fault Memory :=
  m.write addr [b]

/-- two bytes as a word, high byte first -/
def readWord (m : Memory) (addr : UInt16) : Except Fault UInt16 :=
  (checkRange addr 2).map fun _ =>
    ((m.byteAt addr.toNat).toUInt16 <<< 8) ||| (m.byteAt (addr.toNat + 1)).toUInt16

def writeWord (m : Memory) (addr w : UInt16) : Except Fault Memory :=
  m.write addr [(w >>> 8).toUInt8, w.toUInt8]

/-! ## Slices

A slice is cut out between its start and its end. The end is the sum of two machine words, computed once for the check and
once more for the cut. -/

/-- how a program is built: a sum that is no machine word brings it down, or is taken modulo 2^64 -/
inductive Overflow where
  | trap
  | wrap
  deriving DecidableEq, Repr

def Overflow.add : Overflow → UInt64 → UInt64 → Except Panic UInt64
  | trap, a, b => if a.toNat + b.toNat < UInt64.size then .ok (a + b) else .error .addOverflow
  | wrap, a, b => .ok (a + b)

/-- `checkRange` on words -/
def checkWords (o : Overflow) (start len : UInt64) : Except Panic (Except Fault Unit) :=
  if start ≥ 4096 then .ok (.error (.outOfBounds start.toNat))
  else do
    let stop ← o.add start len
    .ok (if stop > 4096 then .error (.outOfBounds size) else .ok ())

/-- a slice of memory that is lent out, and what lies before and behind it -/
structure Window where
  before : List UInt8
  bytes : List UInt8
  behind : List UInt8
  deriving DecidableEq, Repr

/-- cut bytes at two places -/
def Window.cut (bytes : List UInt8) (start stop : UInt64) : Except Panic Window :=
  if start > stop then .error (.sliceOrder start.toNat stop.toNat)
  else if stop.toNat > bytes.length then .error (.sliceEnd stop.toNat bytes.length)
  else .ok ⟨bytes.take start.toNat, (bytes.take stop.toNat).drop start.toNat, bytes.drop stop.toNat⟩

/-- lend out the `len` bytes from `addr` on -/
def borrow (o : Overflow) (m : Memory) (addr : UInt16) (len : UInt64) : Except Panic (Except Fault Window) := do
  match ← checkWords o addr.toUInt64 len with
  | .error f => .ok (.error f)
  | .ok () => do
    let stop ← o.add addr.toUInt64 len
    let w ← Window.cut m.bytes.toList addr.toUInt64 stop
    .ok (.ok w)

def slice (o : Overflow) (m : Memory) (addr : UInt16) (len : UInt64) : Except Panic (Except Fault (List UInt8)) :=
  (m.borrow o addr len).map fun lent => lent.map Window.bytes

def fill (o : Overflow) (m : Memory) (addr : UInt16) (len : UInt64) (b : UInt8) : Except Panic (Except Fault Memory) :=
  (m.borrow o addr len).map fun lent => lent.map fun _ => ⟨place m.bytes addr.toNat (List.replicate len.toNat b)⟩

/-! ## Loading programs -/

/-- where a program comes from: pieces in order, and the trouble that ends them, if any -/
structure Source where
  pieces : List (List UInt8)
  trouble : Option String
  deriving DecidableEq, Repr

/-- cut an image into pieces of `n` bytes and a last one of what is left; at most `count` pieces -/
def cut (n : Nat) : Nat → List UInt8 → List (List UInt8)
  | 0, _ => []
  | _ + 1, [] => []
  | count + 1, bytes => bytes.take n :: cut n count (bytes.drop n)

/-- an image that arrives in pieces of `n` bytes, at least one -/
def Source.ofImage (n : Nat) (image : List UInt8) (trouble : Option String) : Source :=
  ⟨cut n image.length image, trouble⟩

/-- the whole image, or the trouble met on the way -/
def Source.image (s : Source) : Except Fault (List UInt8) :=
  match s.trouble with
  | some text => .error (.io text)
  | none => .ok s.pieces.flatten

theorem flatten_cut {n : Nat} (h : 0 < n) (count : Nat) (bytes : List UInt8) (hc : bytes.length ≤ count) :
    (cut n count bytes).flatten = bytes := by
  induction count generalizing bytes with
  | zero =>
    rw [List.length_eq_zero_iff.mp (Nat.le_zero.mp hc)]
    rfl
  | succ count ih =>
    cases bytes with
    | nil => rfl
    | cons b bs =>
      have hd : ((b :: bs).drop n).length ≤ count := by
        simp only [List.length_drop, List.length_cons] at *
        omega
      show (b :: bs).take n ++ (cut n count ((b :: bs).drop n)).flatten = b :: bs
      rw [ih _ hd, List.take_append_drop]

/-- an image arrives whole, however it is cut -/
theorem image_ofImage {n : Nat} (h : 0 < n) (image : List UInt8) : (Source.ofImage n image none).image = .ok image :=
  congrArg Except.ok (flatten_cut h _ _ (Nat.le_refl _))

def load (m : Memory) (program : List UInt8) : Except Fault Memory :=
  if program.length > maxProgram then .error (.programTooLarge program.length maxProgram)
  else m.write programStart program

theorem load_of_length_le {m : Memory} {program : List UInt8} (h : program.length ≤ maxProgram) :
    m.load program = .ok ⟨place m.bytes programStart.toNat program⟩ := by
  have hs : programStart.toNat = 512 := rfl
  have hc : checkRange programStart program.length = .ok () := by
    rw [checkRange_eq_ok_iff, hs]
    unfold size
    unfold maxProgram at h
    omega
  rw [load, if_neg (Nat.not_lt.2 h), write, hc]
  rfl

/-- read a program to its end, then load it -/
def loadFrom (m : Memory) (s : Source) : Except Fault Memory :=
  s.image.bind m.load

end Memory

end Chip8
