/-
Points of a bitplane: a grid of any width and height packed as one bit per cell, row-major, first cell in the top bit
of its byte. `points` lists the cells whose bit has a given value, last cell first, with the vertical axis pointing up:
the top row is at height zero and the rows below it at negative heights.
-/

namespace Chip8

/-- a point of the plot: `x` to the right, `depth` downwards -/
structure Point where
  x : Nat
  depth : Nat
  deriving DecidableEq, Repr

namespace Point

def y (p : Point) : Int := -(p.depth : Int)

end Point

def axisText (n : Nat) : String :=
  Nat.repr n ++ ".0"

/-- a coordinate on the negative side, as text; zero keeps its sign -/
def negAxisText (n : Nat) : String :=
  "-" ++ Nat.repr n ++ ".0"

structure Resolution where
  width : Nat
  height : Nat
  deriving DecidableEq, Repr

namespace Resolution

def pixelCount (r : Resolution) : Nat :=
  r.width * r.height

/-- the bit of cell `n` -/
def bit? (data : Array UInt8) (n : Nat) : Option UInt8 :=
  (data[n / 8]?).map fun b => (b >>> (7 - n % 8).toUInt8) &&& 1

/-- the point of cell `n` -/
def point (r : Resolution) (n : Nat) : Point :=
  ⟨n % r.width, n / r.width⟩

/-- the points among the first `n` cells whose bit is `plane`, last cell first; none when the data end too early -/
def pointsBelow (r : Resolution) (data : Array UInt8) (plane : UInt8) : Nat → Option (List Point)
  | 0 => some []
  | n + 1 =>
    match bit? data n, pointsBelow r data plane n with
    | some b, some ps => some (if b = plane then r.point n :: ps else ps)
    | _, _ => none

def points (r : Resolution) (data : Array UInt8) (plane : UInt8) : Option (List Point) :=
  r.pointsBelow data plane r.pixelCount

/-- the largest horizontal coordinate; the smallest is zero -/
def maxX (r : Resolution) : Nat := r.width - 1

/-- the largest depth; the smallest is zero -/
def maxDepth (r : Resolution) : Nat := r.height - 1

end Resolution

end Chip8
