/-
Binary to packed decimal by shifting: three accumulators of one decimal digit each take in the bits of the value from
the top, and a digit of five or more gets three added before it is doubled, so that it carries into its neighbour at
ten. `pack` puts hundreds, tens and ones into bits 8-11, 4-7 and 0-3.
-/

namespace Chip8.Bcd

structure Digits where
  hundreds : UInt16
  tens : UInt16
  ones : UInt16
  deriving DecidableEq, Repr

/-- a digit that is about to be doubled: from five on, three more make it carry at sixteen -/
def correct (d : UInt16) : UInt16 :=
  if d ≥ 5 then d + 3 else d

def lowNibble (w : UInt16) : UInt16 :=
  w &&& 0xF

/-- double the number and add one bit, the digits having been corrected first -/
def shiftIn (ds : Digits) (bit : UInt16) : Digits :=
  let h := correct ds.hundreds
  let t := correct ds.tens
  let o := correct ds.ones
  ⟨lowNibble (h <<< 1) ||| (t >>> 3), lowNibble (t <<< 1) ||| (o >>> 3), lowNibble (o <<< 1) ||| bit⟩

/-- the bits of a byte, the top one first -/
def bits (val : UInt8) : List UInt16 :=
  ([7, 6, 5, 4, 3, 2, 1, 0] : List UInt8).map fun k => ((val >>> k) % 2).toUInt16

def digits (val : UInt8) : Digits :=
  (bits val).foldl shiftIn ⟨0, 0, 0⟩

/-- three digits in one word -/
def pack (ds : Digits) : UInt16 :=
  (ds.hundreds <<< 8) ||| (ds.tens <<< 4) ||| ds.ones

/-- the packed decimal form of a byte: 162 becomes 0x162 -/
def ofByte (val : UInt8) : UInt16 :=
  pack (digits val)

/-- the three digits of a packed word as bytes, hundreds first -/
def unpack (bcd : UInt16) : List UInt8 :=
  [(lowNibble (bcd >>> 8)).toUInt8, (lowNibble (bcd >>> 4)).toUInt8, (lowNibble bcd).toUInt8]

end Chip8.Bcd
