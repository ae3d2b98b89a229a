/-
The bare machine: registers, stack, memory and screen are plain lists, whose types say nothing about their lengths, and
operands are the numbers that masks and shifts take out of an opcode. Every access is by such a raw index. An index out
of range has no outcome (`none`): that is where a program would bring the interpreter down, while a `Fault` is an answer
like any other. `Bare.of` forgets what the types of a machine promise.

Results: the accesses of the bare machine, one by one, on a machine that has forgotten its bounds:
- `Bare.setV_of`, `Bare.pop_of`, `Bare.push_of`: registers and stack;
- `Bare.slice_of`, `Bare.splice_of`: memory;
- `Bare.strike_of`, `Bare.drawSprite_of`: the screen.
-/
import Chip8.Execute

namespace Chip8

/-- what a program can see or touch, with no bound in the types -/
structure Bare where
  memory : List UInt8
  v : List UInt8
  slots : List UInt16
  depth : Nat
  rows : List (List Bool)
  i : UInt16
  pc : UInt16
  timers : Timers
  keypad : Keypad
  redraw : Bool
  random : Generator

namespace Bare

/-- the rows of a screen, from the top -/
def rowsOf (s : Screen) : List (List Bool) :=
  List.ofFn fun y : Fin 32 => List.ofFn fun x : Fin 64 => s.pixel ⟨x, y⟩

/-- a machine without its bounds -/
def of (m : Machine) : Bare where
  memory := m.memory.bytes.toList
  v := m.v.toList
  slots := m.stack.slots.toList
  depth := m.stack.depth
  rows := rowsOf m.screen
  i := m.i
  pc := m.pc
  timers := m.timers
  keypad := m.keypad
  redraw := m.redraw
  random := m.random

@[simp] theorem of_i (m : Machine) : (of m).i = m.i := rfl

@[simp] theorem of_pc (m : Machine) : (of m).pc = m.pc := rfl

@[simp] theorem of_depth (m : Machine) : (of m).depth = m.stack.depth := rfl

@[simp] theorem of_keypad (m : Machine) : (of m).keypad = m.keypad := rfl

/-! ## Operands -/

/-- register Vx -/
def x (opcode : UInt16) : Nat :=
  ((opcode &&& 0x0F00) >>> 8).toNat

/-- register Vy -/
def y (opcode : UInt16) : Nat :=
  ((opcode &&& 0x00F0) >>> 4).toNat

/-- how many rows a sprite has -/
def n (opcode : UInt16) : Nat :=
  (opcode &&& 0x000F).toNat

/-- four bits of a number -/
theorem field_eq (a k : Nat) : (a >>> k) % 16 = (a &&& 15 <<< k) >>> k := by
  have h15 : 15 = 2 ^ 4 - 1 := rfl
  rw [Nat.shiftRight_and_distrib, Nat.shiftLeft_shiftRight, h15, Nat.and_two_pow_sub_one_eq_mod]

theorem x_eq (opcode : UInt16) : x opcode = (Opcode.x opcode).val := by
  have h := field_eq opcode.toNat 8
  rw [Nat.shiftRight_eq_div_pow] at h
  simp only [x, Opcode.x, UInt16.toNat_shiftRight, UInt16.toNat_and]
  exact h.symm

theorem y_eq (opcode : UInt16) : y opcode = (Opcode.y opcode).val := by
  have h := field_eq opcode.toNat 4
  rw [Nat.shiftRight_eq_div_pow] at h
  simp only [y, Opcode.y, UInt16.toNat_shiftRight, UInt16.toNat_and]
  exact h.symm

theorem n_eq (opcode : UInt16) : n opcode = (Opcode.nibble opcode).val := by
  have h15 : (0x000F : UInt16).toNat = 2 ^ 4 - 1 := rfl
  rw [n, UInt16.toNat_and, h15, Nat.and_two_pow_sub_one_eq_mod]
  rfl

/-! ## Registers and stack -/

/-- replace what stands at an index -/
def put {α : Type} (l : List α) (k : Nat) (a : α) : Option (List α) :=
  if k < l.length then some (l.set k a) else none

theorem put_of_lt {α : Type} {l : List α} {k : Nat} (h : k < l.length) (a : α) : put l k a = some (l.set k a) :=
  if_pos h

/-- set a register -/
def setV (m : Bare) (k : Nat) (b : UInt8) : Option Bare := do
  let v ← put m.v k b
  some { m with v := v }

/-- put a return address on the stack -/
def push (m : Bare) (addr : UInt16) : Option (Except Fault Bare) :=
  if m.depth ≤ 15 then do
    let slots ← put m.slots (15 - m.depth) addr
    some (.ok { m with slots := slots, depth := m.depth + 1 })
  else some (.error (.stackOverflow m.pc))

/-- take a return address off the stack; a slot number below zero is out of range too -/
def pop (m : Bare) : Option (Except Fault (UInt16 × Bare)) :=
  if m.depth = 0 then some (.error (.stackUnderflow m.pc))
  else if m.depth - 1 ≤ 15 then do
    let addr ← m.slots[15 - (m.depth - 1)]?
    some (.ok (addr, { m with depth := m.depth - 1 }))
  else none

@[simp] theorem getElem?_v_of (m : Machine) (r : Register) : (of m).v[r.val]? = some (m.getV r) := by
  simp [of, Machine.getV]

@[simp] theorem setV_of (m : Machine) (r : Register) (b : UInt8) : (of m).setV r.val b = some (of (m.setV r b)) := by
  have hlt : r.val < m.v.toList.length := by simp
  have hset : m.v.toList.set r.val b = (m.v.set r b).toList := (Vector.toList_set ..).symm
  have hv : (of m).v = m.v.toList := rfl
  simp only [setV, hv, put_of_lt hlt, hset, Option.bind_eq_bind, Option.bind_some]
  rfl

theorem push_of (m : Machine) (addr : UInt16) : (of m).push addr = some ((m.push addr).map of) := by
  unfold push Machine.push CallStack.push
  by_cases h : m.stack.depth < 16
  · have hlt : 15 - m.stack.depth < m.stack.slots.toList.length := by simp; omega
    have hslots : (of m).slots = m.stack.slots.toList := rfl
    rw [of_depth, if_pos (by omega), dif_pos h, hslots, put_of_lt hlt]
    simp [of, Except.map, Vector.toList_set]
  · rw [of_depth, if_neg (by omega), dif_neg h]
    rfl

theorem pop_of (m : Machine) : (of m).pop = some (m.pop.map fun (addr, m) => (addr, of m)) := by
  have hle := m.stack.depth_le
  unfold pop Machine.pop CallStack.pop
  by_cases h : 0 < m.stack.depth
  · have hk : 15 - (m.stack.depth - 1) = 16 - m.stack.depth := by omega
    have hget : (of m).slots[16 - m.stack.depth]? = some m.stack.slots[16 - m.stack.depth] := by
      simp only [of]
      rw [Vector.getElem?_toList]
      exact Vector.getElem?_eq_getElem _
    rw [of_depth, if_neg (by omega), if_pos (by omega), dif_pos h, hk, hget]
    rfl
  · rw [of_depth, if_pos (by omega), dif_neg h]
    rfl

/-! ## Memory -/

/-- the bytes from `addr` on, `len` of them, after the check that memory makes -/
def slice (m : Bare) (addr : UInt16) (len : Nat) : Option (Except Fault (List UInt8)) :=
  match Memory.checkRange addr len with
  | .error f => some (.error f)
  | .ok () =>
    if addr.toNat + len ≤ m.memory.length then some (.ok ((m.memory.drop addr.toNat).take len)) else none

/-- put bytes from `addr` on, after the check that memory makes -/
def splice (m : Bare) (addr : UInt16) (data : List UInt8) : Option (Except Fault Bare) :=
  match Memory.checkRange addr data.length with
  | .error f => some (.error f)
  | .ok () =>
    if addr.toNat + data.length ≤ m.memory.length then
      some (.ok { m with memory := m.memory.take addr.toNat ++ data ++ m.memory.drop (addr.toNat + data.length) })
    else none

/-- a slice of memory, byte by byte -/
theorem take_drop_bytes {mem : Memory} {a len : Nat} (h : a + len ≤ 4096) :
    (mem.bytes.toList.drop a).take len = (List.range len).map fun k => mem.byteAt (a + k) := by
  refine List.ext_getElem (by simp; omega) fun k hk _ => ?_
  have hlt : k < len := by simp at hk; omega
  simp only [List.getElem_take, List.getElem_drop, List.getElem_map, List.getElem_range, Memory.byteAt,
    Vector.getElem_toList]
  rw [Vector.getElem?_eq_getElem (by omega)]
  rfl

/-- placing bytes that fit leaves what is before and behind them -/
theorem toList_place {bytes : Vector UInt8 4096} {a : Nat} {data : List UInt8} (h : a + data.length ≤ 4096) :
    (Memory.place bytes a data).toList = bytes.toList.take a ++ data ++ bytes.toList.drop (a + data.length) := by
  induction data generalizing bytes a with
  | nil => simp [Memory.place]
  | cons b bs ih =>
    have hlen : a + 1 + bs.length ≤ 4096 := by
      simp only [List.length_cons] at h
      omega
    have hset : (bytes.setIfInBounds a b).toList = bytes.toList.set a b := Vector.toList_setIfInBounds
    have htake : (bytes.toList.set a b).take (a + 1) = bytes.toList.take a ++ [b] := by
      rw [List.take_add_one, List.take_set_of_le (Nat.le_refl a), List.getElem?_set_self (by simp; omega)]
      rfl
    have hdrop : (bytes.toList.set a b).drop (a + 1 + bs.length) = bytes.toList.drop (a + (b :: bs).length) := by
      rw [List.drop_set_of_lt (by omega), List.length_cons, Nat.add_assoc, Nat.add_comm 1]
    rw [Memory.place, ih hlen, hset, htake, hdrop, List.append_assoc, List.append_assoc, List.append_assoc]
    rfl

theorem slice_of (m : Machine) (addr : UInt16) (len : Nat) : (of m).slice addr len = some (m.memory.read addr len) := by
  unfold slice Memory.read
  cases hc : Memory.checkRange addr len with
  | error f => rfl
  | ok u =>
    have hin : addr.toNat + len ≤ 4096 := ((Memory.checkRange_eq_ok_iff addr len).1 hc).2
    have hlen : (of m).memory.length = 4096 := Vector.length_toList
    simp only [hlen, if_pos hin, Except.map, ← take_drop_bytes hin]
    rfl

theorem splice_of (m : Machine) (addr : UInt16) (data : List UInt8) :
    (of m).splice addr data = some ((m.withMemory (m.memory.write addr data)).map of) := by
  unfold splice Memory.write
  cases hc : Memory.checkRange addr data.length with
  | error f => rfl
  | ok u =>
    have hin : addr.toNat + data.length ≤ 4096 := ((Memory.checkRange_eq_ok_iff addr data.length).1 hc).2
    have hlen : (of m).memory.length = 4096 := Vector.length_toList
    simp only [hlen, if_pos hin]
    simp only [Machine.withMemory, Except.map, of, toList_place hin]

/-! ## Screen -/

/-- switch the pixel in column `x` of row `y` over, and remember whether a lit one went out -/
def strike (drawn : List (List Bool) × Bool) (x y : Nat) : Option (List (List Bool) × Bool) := do
  let row ← drawn.1[y]?
  let lit ← row[x]?
  let row ← put row x (!lit)
  let rows ← put drawn.1 y row
  some (rows, drawn.2 || lit)

/-- the first `k` pixels of a sprite row, as far as they are on the screen -/
def drawRow (x y : Nat) (data : UInt8) (drawn : List (List Bool) × Bool) : Nat → Option (List (List Bool) × Bool)
  | 0 => some drawn
  | k + 1 => do
    let drawn ← drawRow x y data drawn k
    if data.toNat.testBit (7 - k) ∧ x + k < 64 then strike drawn (x + k) y else some drawn

/-- a sprite with its corner at `(x, y)`, row by row; rows below the screen are passed over -/
def drawSprite (x y : Nat) : List UInt8 → List (List Bool) × Bool → Option (List (List Bool) × Bool)
  | [], drawn => some drawn
  | data :: rest, drawn => do
    let drawn ← if y < 32 then drawRow x y data drawn 8 else some drawn
    drawSprite x (y + 1) rest drawn

/-- what has been drawn so far, without its bounds -/
def ofDrawn (drawn : Screen × Bool) : List (List Bool) × Bool :=
  (rowsOf drawn.1, drawn.2)

/-- replacing in a table -/
theorem put_ofFn {α : Type} {len : Nat} (f : Fin len → α) (k : Fin len) (a : α) :
    put (List.ofFn f) k.val a = some (List.ofFn fun j => if j = k then a else f j) := by
  have hlt : k.val < (List.ofFn f).length := by rw [List.length_ofFn]; exact k.isLt
  have hset : (List.ofFn f).set k.val a = List.ofFn fun j => if j = k then a else f j := by
    refine List.ext_getElem (by rw [List.length_set, List.length_ofFn, List.length_ofFn]) fun j hj _ => ?_
    rw [List.getElem_set, List.getElem_ofFn, List.getElem_ofFn]
    simp only [Fin.ext_iff, eq_comm]
  rw [put_of_lt hlt, hset]

theorem getElem?_table {α : Type} {len : Nat} (f : Fin len → α) (k : Fin len) : (List.ofFn f)[k.val]? = some (f k) := by
  rw [List.getElem?_ofFn, dif_pos k.isLt]

theorem strike_of (drawn : Screen × Bool) (p : Position) :
    strike (ofDrawn drawn) p.x.val p.y.val = some (ofDrawn (Screen.strike drawn p)) := by
  have hrows : rowsOf (drawn.1.toggle p) = List.ofFn fun y => if y = p.y then
      List.ofFn fun x => if x = p.x then !drawn.1.pixel p else drawn.1.pixel ⟨x, p.y⟩
      else List.ofFn fun x => drawn.1.pixel ⟨x, y⟩ := by
    refine congrArg List.ofFn (funext fun y => ?_)
    by_cases hy : y = p.y
    · rw [if_pos hy, hy]
      refine congrArg List.ofFn (funext fun x => ?_)
      rw [Screen.pixel_toggle]
      by_cases hx : x = p.x
      · rw [if_pos hx, hx, if_pos rfl]
      · rw [if_neg hx, if_neg fun e => hx (congrArg Position.x e)]
    · rw [if_neg hy]
      refine congrArg List.ofFn (funext fun x => ?_)
      rw [Screen.pixel_toggle, if_neg fun e => hy (congrArg Position.y e)]
  simp only [strike, ofDrawn, Screen.strike, rowsOf, getElem?_table, put_ofFn, Option.bind_eq_bind, Option.bind_some]
  rw [← hrows]
  rfl

theorem drawRow_of {x y : Nat} (hy : y < 32) (data : UInt8) (drawn : Screen × Bool) (k : Nat) :
    drawRow x y data (ofDrawn drawn) k = some (ofDrawn (((List.range k).filterMap fun dx =>
      if data.toNat.testBit (7 - dx) then Position.of? (x + dx) y else none).foldl Screen.strike drawn)) := by
  induction k with
  | zero => rfl
  | succ k ih =>
    rw [drawRow, ih, List.range_succ, List.filterMap_append, List.foldl_append]
    simp only [Option.bind_eq_bind, Option.bind_some, List.filterMap_cons, List.filterMap_nil, Position.of?]
    by_cases hbit : data.toNat.testBit (7 - k) = true
    · by_cases hx : x + k < 64
      · rw [if_pos ⟨hbit, hx⟩, if_pos hbit, dif_pos ⟨hx, hy⟩]
        exact strike_of _ ⟨⟨x + k, hx⟩, ⟨y, hy⟩⟩
      · rw [if_neg fun h => hx h.2, if_pos hbit, dif_neg fun h => hx h.1]
        rfl
    · rw [if_neg fun h => hbit h.1, if_neg hbit]
      rfl

/-- a row below the screen covers nothing -/
theorem rowCoverage_eq_nil {y : Nat} (hy : ¬ y < 32) (x : Nat) (data : UInt8) : Screen.rowCoverage x y data = [] := by
  rw [Screen.rowCoverage, List.filterMap_eq_nil_iff]
  intro dx _
  rw [Position.of?, dif_neg fun h => hy h.2, ite_self]

theorem drawSprite_of (x y : Nat) (sprite : List UInt8) (drawn : Screen × Bool) :
    drawSprite x y sprite (ofDrawn drawn) =
      some (ofDrawn ((Screen.coverage x y sprite).foldl Screen.strike drawn)) := by
  induction sprite generalizing y drawn with
  | nil => rfl
  | cons data rest ih =>
    rw [drawSprite, Screen.coverage, List.foldl_append]
    by_cases hy : y < 32
    · rw [if_pos hy, drawRow_of hy]
      exact ih (y + 1) _
    · rw [if_neg hy, rowCoverage_eq_nil hy]
      exact ih (y + 1) drawn

/-- draw the sprite of `rows` rows that I points to -/
def draw (m : Bare) (x y : UInt8) (rows : Nat) : Option (Except Fault (Bool × Bare)) := do
  match ← m.slice m.i rows with
  | .error f => some (.error f)
  | .ok sprite => do
    let drawn ← drawSprite x.toNat y.toNat sprite (m.rows, false)
    some (.ok (drawn.2, { m with rows := drawn.1, redraw := true }))

theorem draw_of (m : Machine) (x y : UInt8) (rows : Nat) :
    (of m).draw x y rows = some ((m.draw x y rows).map fun (collision, m) => (collision, of m)) := by
  have hstart : ((of m).rows, false) = ofDrawn (m.screen, false) := rfl
  simp only [draw, Machine.draw, of_i, hstart, slice_of, Option.bind_eq_bind, Option.bind_some]
  cases m.memory.read m.i rows with
  | error f => rfl
  | ok sprite =>
    simp only [Except.map, drawSprite_of, Option.bind_some]
    rfl

end Bare

end Chip8
