/-
The screen: 64 by 32 pixels, each lit or not. A sprite is a list of rows of eight pixels, the top bit leftmost; drawing
it toggles the pixels it covers. What falls off the right or the bottom edge is dropped and the rest is drawn
(`coverage` lists the positions on screen). `pixel` is the view; `pixel_toggle` says what a toggle does to it.
-/

namespace Chip8

structure Position where
  x : Fin 64
  y : Fin 32
  deriving DecidableEq, Repr

namespace Position

def index (p : Position) : Nat :=
  p.y.val * 64 + p.x.val

theorem index_lt (p : Position) : p.index < 2048 := by
  unfold index
  omega

theorem index_injective {p q : Position} (h : p.index = q.index) : p = q := by
  unfold index at h
  have hx : p.x.val = q.x.val := by omega
  have hy : p.y.val = q.y.val := by omega
  cases p
  cases q
  rw [Position.mk.injEq]
  exact ⟨Fin.ext hx, Fin.ext hy⟩

/-- the position with these coordinates, if it is on the screen -/
def of? (x y : Nat) : Option Position :=
  if h : x < 64 ∧ y < 32 then some ⟨⟨x, h.1⟩, ⟨y, h.2⟩⟩ else none

end Position

/-- the pixels in row-major order -/
structure Screen where
  cells : Vector Bool 2048
  deriving DecidableEq

namespace Screen

def blank : Screen :=
  ⟨Vector.replicate 2048 false⟩

def pixel (s : Screen) (p : Position) : Bool :=
  have := p.index_lt
  s.cells[p.index]

/-- is the pixel at these coordinates lit? Off the screen nothing is. -/
def lit (s : Screen) (x y : Nat) : Bool :=
  match Position.of? x y with
  | some p => s.pixel p
  | none => false

def toggle (s : Screen) (p : Position) : Screen :=
  have := p.index_lt
  ⟨s.cells.set p.index (!s.cells[p.index])⟩

@[simp] theorem pixel_blank (p : Position) : blank.pixel p = false := by
  simp [pixel, blank]

/-- toggling switches one pixel and leaves the others -/
theorem pixel_toggle (s : Screen) (p q : Position) :
    (s.toggle p).pixel q = if q = p then !s.pixel p else s.pixel q := by
  unfold toggle pixel
  rw [Vector.getElem_set]
  by_cases h : q = p
  · rw [if_pos h, if_pos (by rw [h])]
  · rw [if_neg h, if_neg fun e => h (Position.index_injective e.symm)]

def litCount (s : Screen) : Nat :=
  s.cells.count true

/-! ## Sprites -/

/-- the on-screen positions that a sprite row covers, left to right -/
def rowCoverage (x y : Nat) (row : UInt8) : List Position :=
  (List.range 8).filterMap fun dx => if row.toNat.testBit (7 - dx) then Position.of? (x + dx) y else none

/-- the on-screen positions that a sprite with its corner at `(x, y)` covers, row by row -/
def coverage (x y : Nat) : List UInt8 → List Position
  | [] => []
  | row :: rows => rowCoverage x y row ++ coverage x (y + 1) rows

/-- switch one pixel over and remember whether a lit one went out -/
def strike (drawn : Screen × Bool) (p : Position) : Screen × Bool :=
  let wasLit := drawn.1.pixel p
  (drawn.1.toggle p, drawn.2 || wasLit)

/-- draw a sprite with its corner at `(x, y)`; the flag tells whether any lit pixel went out -/
def drawSprite (s : Screen) (x y : UInt8) (rows : List UInt8) : Screen × Bool :=
  (coverage x.toNat y.toNat rows).foldl strike (s, false)

/-! ## Packing -/

/-- eight pixels from index `n` on as a byte, the first one in the top bit -/
def packByte (s : Screen) (n : Nat) : UInt8 :=
  (List.range 8).foldl (fun b k => b ||| (if s.cells[n + k]?.getD false then 0x80 >>> k.toUInt8 else 0)) 0

/-- the screen as one bit per pixel, row-major, first pixel in the top bit -/
def toBytes (s : Screen) : List UInt8 :=
  (List.range 256).map fun k => s.packByte (8 * k)

end Screen

end Chip8
