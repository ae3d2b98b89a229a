/-
The random generator: the words of a ChaCha key stream of twelve rounds, the key stretched from a seed of 64 bits by a
linear congruential generator with a permuted output. A random byte is the low byte of the next word.
-/
import Chip8.Instruction

namespace Chip8

/-- a seed, and how many words have been drawn from its stream -/
structure Generator where
  seed : UInt64
  drawn : Nat
  deriving DecidableEq, Repr

namespace Generator

def ofSeed (seed : UInt64) : Generator :=
  ⟨seed, 0⟩

/-! ## The key -/

def advance (s : UInt64) : UInt64 :=
  s * 6364136223846793005 + 11634580027462260723

def rotateRight (w k : UInt32) : UInt32 :=
  (w >>> k) ||| (w <<< ((32 - k) % 32))

def rotateLeft (w k : UInt32) : UInt32 :=
  (w <<< k) ||| (w >>> ((32 - k) % 32))

/-- the word that a state of the stretching generator gives -/
def permute (s : UInt64) : UInt32 :=
  rotateRight (((s >>> 18) ^^^ s) >>> 27).toUInt32 (s >>> 59).toUInt32

/-- key words from a state on -/
def keyWords : Nat → UInt64 → List UInt32
  | 0, _ => []
  | n + 1, s => permute (advance s) :: keyWords n (advance s)

/-! ## The blocks -/

abbrev Block := Vector UInt32 16

/-- the quarter round on the words `a b c d` of a block -/
def quarterRound (a b c d : Fin 16) (s : Block) : Block :=
  let s := s.set a (s[a] + s[b])
  let s := s.set d (rotateLeft (s[d] ^^^ s[a]) 16)
  let s := s.set c (s[c] + s[d])
  let s := s.set b (rotateLeft (s[b] ^^^ s[c]) 12)
  let s := s.set a (s[a] + s[b])
  let s := s.set d (rotateLeft (s[d] ^^^ s[a]) 8)
  let s := s.set c (s[c] + s[d])
  s.set b (rotateLeft (s[b] ^^^ s[c]) 7)

/-- one round on the columns and one on the diagonals -/
def doubleRound (s : Block) : Block :=
  [(0, 4, 8, 12), (1, 5, 9, 13), (2, 6, 10, 14), (3, 7, 11, 15),
    (0, 5, 10, 15), (1, 6, 11, 12), (2, 7, 8, 13), (3, 4, 9, 14)].foldl
    (fun s (a, b, c, d) => quarterRound a b c d s) s

/-- the input block: four constants, the key, the block number in two words, and two zeros -/
def inputBlock (seed : UInt64) (number : Nat) : Block :=
  let words := [0x61707865, 0x3320646e, 0x79622d32, 0x6b206574] ++ keyWords 8 seed ++
    [number.toUInt32, (number / UInt32.size).toUInt32, 0, 0]
  Vector.ofFn fun k => words.getD k.val 0

/-- the key stream block with this number: twelve rounds, and the input block added at the end -/
def block (seed : UInt64) (number : Nat) : Block :=
  let start := inputBlock seed number
  let mixed := (List.range 6).foldl (fun s _ => doubleRound s) start
  Vector.ofFn fun k => mixed[k] + start[k]

def word (seed : UInt64) (n : Nat) : UInt32 :=
  (block seed (n / 16))[Fin.ofNat 16 n]

def nextByte (g : Generator) : UInt8 × Generator :=
  ((word g.seed g.drawn).toUInt8, { g with drawn := g.drawn + 1 })

end Generator

end Chip8
