/-
Quoted text, as messages show a text that came from outside: between double quotes, with the quote, the backslash and
the characters that print nothing of themselves written as escapes. `\0 \t \n \r` have escapes of their own, the other
ones are written by their code point, `\u` and the hexadecimal number in braces. A mark that would join the character
before it, the quote perhaps, is escaped as well. `escaped_of_ascii` says that plain text stays as it is.
-/
import Chip8.Text.Classes
import Chip8.Text.Number

namespace Chip8.Text

/-- does the character print something of itself? The blank does, the other white space does not. -/
def isPrinted (c : Char) : Bool :=
  c == ' ' || (isGraphic c && !isBlank c && !isIgnorable c && !isExtendingMark c)

theorem isPrinted_of_ascii {c : Char} (above : 0x20 ≤ c.toNat) (below : c.toNat ≤ 0x7E) : isPrinted c = true := by
  by_cases h : c = ' '
  · simp [isPrinted, h]
  · have ne : c.toNat ≠ 0x20 := fun e => h (Char.toNat_inj.mp e)
    have above' : 0x21 ≤ c.toNat := by omega
    have blank : isBlank c = false := inRanges_eq_false (by decide) above' below
    have ignorable : isIgnorable c = false := inRanges_eq_false (by decide) above below
    have mark : isExtendingMark c = false := inRanges_eq_false (by decide +kernel) above below
    have other : inRanges nongraphicRanges c = false := inRanges_eq_false (by decide +kernel) above below
    simp [isPrinted, isGraphic, blank, ignorable, mark, other]

/-- one character inside quotes -/
def escaped (c : Char) : List Char :=
  match c with
  | '\x00' => ['\\', '0']
  | '\t' => ['\\', 't']
  | '\n' => ['\\', 'n']
  | '\r' => ['\\', 'r']
  | '"' => ['\\', '"']
  | '\\' => ['\\', '\\']
  | c => if isPrinted c then [c] else ['\\', 'u', '\x7b'] ++ Hex.lowerDigits 1 c.toNat ++ ['\x7d']

theorem escaped_of_ascii {c : Char} (above : 0x20 ≤ c.toNat) (below : c.toNat ≤ 0x7E) (quote : c ≠ '"')
    (backslash : c ≠ '\\') : escaped c = [c] := by
  have printed := isPrinted_of_ascii above below
  unfold escaped
  split <;> simp_all

/-- a text between double quotes -/
def quoted (s : String) : String :=
  String.ofList ('"' :: s.toList.flatMap escaped ++ ['"'])

end Chip8.Text
