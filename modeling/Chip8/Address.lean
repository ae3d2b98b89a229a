/-
Addresses as people write them: hexadecimal, like `0x2a4`, `2a4` or `$2A4`, with white space around. The prefixes are
taken off in the order `0x`, `0X`, `$`, each as often as it stands there. An address lies in memory, so it is at most
0xFFF.
-/
import Chip8.Text.Quoted

namespace Chip8

open Chip8.Text

inductive AddressError where
  | unreadable (text : String) (why : Misread)
  | pastEnd (text : String)
  deriving DecidableEq, Repr

/-- the words for it; the text is quoted as it was given, white space included -/
def AddressError.message : AddressError → String
  | unreadable text why => "bad address " ++ quoted text ++ ": " ++ why.message
  | pastEnd text => "address " ++ quoted text ++ " is past the end of memory"

namespace Address

/-- take off every leading `0x`, where `x` is the given letter -/
def dropZeroLetter (x : Char) : List Char → List Char
  | '0' :: c :: cs => if c = x then dropZeroLetter x cs else '0' :: c :: cs
  | cs => cs

/-- the digits of an address: white space and prefixes taken off -/
def digits (cs : List Char) : List Char :=
  (dropZeroLetter 'X' (dropZeroLetter 'x' (trim cs))).dropWhile (· = '$')

def last : Nat := 0xFFF

def parse (text : String) : Except AddressError UInt16 :=
  match readUnsigned 16 0xFFFF (digits text.toList) with
  | .error why => .error (.unreadable text why)
  | .ok n => if n ≤ last then .ok n.toUInt16 else .error (.pastEnd text)

end Address

end Chip8
