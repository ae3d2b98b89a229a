/-
Numbers as texts. In base sixteen, as messages show them: `Hex.lower` in lower case, filled with zeros up to a width and
longer when the number needs more places; `Hex.upper` in upper case with no fill.

And numbers read from their digits. Digits are taken from the left and the first trouble decides: at each character a
wrong digit is noticed before the number gets too large, so `12g` is a wrong digit and `fffffg` is too large.
One leading plus sign is accepted; a sign alone is a wrong digit.
-/

namespace Chip8.Text

/-! ## Writing -/

namespace Hex

/-- the digits of `n` in lower case, most significant first, filled with zeros up to `width` places -/
def lowerDigits (width n : Nat) : List Char :=
  (Nat.toDigits 16 n).leftpad width '0'

/-- the digits of `n` in upper case, most significant first -/
def upperDigits (n : Nat) : List Char :=
  (Nat.toDigits 16 n).map Char.toUpper

def lower (width n : Nat) : String :=
  String.ofList (lowerDigits width n)

def upper (n : Nat) : String :=
  String.ofList (upperDigits n)

end Hex

/-! ## Reading -/

inductive Misread where
  | empty
  | invalidDigit
  | tooLarge
  deriving DecidableEq, Repr

namespace Misread

def message : Misread → String
  | empty => "cannot parse integer from empty string"
  | invalidDigit => "invalid digit found in string"
  | tooLarge => "number too large to fit in target type"

end Misread

/-- the value of a digit in base `radix`, at most thirty-six; letters count in both cases -/
def digit? (radix : Nat) (c : Char) : Option Nat :=
  let value :=
    if c.isDigit then c.toNat - '0'.toNat
    else if 'a' ≤ c ∧ c ≤ 'z' then c.toNat - 'a'.toNat + 10
    else if 'A' ≤ c ∧ c ≤ 'Z' then c.toNat - 'A'.toNat + 10
    else radix
  if value < radix then some value else none

/-- go on reading digits after the value read so far -/
def readDigits (radix max : Nat) (value : Nat) : List Char → Except Misread Nat
  | [] => .ok value
  | c :: cs =>
    match digit? radix c with
    | none => .error .invalidDigit
    | some d => if value * radix + d ≤ max then readDigits radix max (value * radix + d) cs else .error .tooLarge

/-- an unsigned number of at most `max` -/
def readUnsigned (radix max : Nat) : List Char → Except Misread Nat
  | [] => .error .empty
  | ['+'] => .error .invalidDigit
  | '+' :: cs => readDigits radix max 0 cs
  | cs => readDigits radix max 0 cs

/-- a signed number of 64 bits -/
def readInt64 (radix : Nat) : List Char → Except Misread Int
  | ['-'] => .error .invalidDigit
  | '-' :: cs => (readDigits radix (UInt64.size / 2) 0 cs).map fun n => -(n : Int)
  | cs => (readUnsigned radix (UInt64.size / 2 - 1) cs).map fun n => (n : Int)

end Chip8.Text
