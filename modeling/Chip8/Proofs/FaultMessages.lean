/-
Messages tell recoverable faults apart. The interpreter keeps the message of the last fault, not the fault, and compares
messages to find a repetition; nothing is lost by that.

A number can be read back from its hexadecimal text, whatever its width and case (`Hex.value`), and how a message begins
says which fault it is about (`Fault.opening`).

Results:
- `lower_injective`, `upper_injective`: different numbers have different texts;
- `opening_eq_of_message_eq`: a message begins in the way of one kind of fault only;
- `eq_of_message_eq`: recoverable faults with one message are the same.
-/
import Chip8.Fault
import Chip8.Proofs.Text.Numeral

namespace Chip8

open Chip8.Text

namespace Text.Hex

/-! ## Reading hexadecimal text back -/

/-- the number that digits in either case stand for -/
def value (digits : List Char) : Nat :=
  digits.foldl (fun n c => 16 * n + (digit? 16 c).getD 0) 0

theorem value_concat (digits : List Char) (c : Char) :
    value (digits ++ [c]) = 16 * value digits + (digit? 16 c).getD 0 := by
  rw [value, List.foldl_append]
  rfl

/-- a numeral is read back as the number it stands for -/
theorem value_of_numeral {digits : List Char} {n : Nat} (h : Numeral digits n) : value digits = n := by
  induction h with
  | @digit c d hd =>
    show 16 * 0 + (digit? 16 c).getD 0 = d
    rw [digit?_eq_some_iff.2 hd, Option.getD_some, Nat.mul_zero, Nat.zero_add]
  | more hcs hd ih => rw [value_concat, ih, digit?_eq_some_iff.2 hd, Option.getD_some]

theorem lower_injective (width : Nat) : Function.Injective (lower width) := by
  have hvalue : ∀ n, value (lowerDigits width n) = n := by
    intro n
    exact value_of_numeral ((numeral_toDigits n).1.zeros_append _)
  intro n n' h
  calc n = value (lowerDigits width n) := (hvalue n).symm
    _ = value (lowerDigits width n') := by rw [String.ofList_injective h]
    _ = n' := hvalue n'

theorem upper_injective : Function.Injective upper := by
  have hvalue : ∀ n, value (upperDigits n) = n := by
    intro n
    exact value_of_numeral (numeral_toDigits n).2
  intro n n' h
  calc n = value (upperDigits n) := (hvalue n).symm
    _ = value (upperDigits n') := by rw [String.ofList_injective h]
    _ = n' := hvalue n'

/-- a word takes four places -/
theorem length_lowerDigits_word (w : UInt16) : (lowerDigits 4 w.toNat).length = 4 := by
  have hlen : (Nat.toDigits 16 w.toNat).length ≤ 4 := Nat.toDigits_length 16 w.toNat 4 (by decide) w.toNat_lt
  rw [lowerDigits, List.length_leftpad, Nat.max_eq_left hlen]

end Text.Hex

namespace Fault

/-! ## Messages -/

/-- how the message of a fault of this kind begins -/
def opening : Fault → String
  | programTooLarge _ _ => "program is "
  | invalidOpcode _ _ => "invalid opcode 0x"
  | stackOverflow _ => "stack overflow calling from 0x"
  | stackUnderflow _ => "stack underflow returning from 0x"
  | outOfBounds _ => "address 0x"
  | noSuchRegister _ => "register V"
  | noSuchKey _ => "key 0x"
  | io _ => "io error: "

theorem opening_prefix (f : Fault) : f.opening.toList <+: f.message.toList := by
  have happend : ∀ {a b c : String}, a.toList <+: b.toList → a.toList <+: (b ++ c).toList := by
    intro a b c h
    rw [String.toList_append]
    exact h.trans (List.prefix_append _ _)
  cases f with
  | programTooLarge len max => exact happend (happend (happend (happend (List.prefix_refl _))))
  | invalidOpcode opcode addr => exact happend (happend (happend (List.prefix_refl _)))
  | stackOverflow pc => exact happend (List.prefix_refl _)
  | stackUnderflow pc => exact happend (List.prefix_refl _)
  | outOfBounds addr => exact happend (happend (List.prefix_refl _))
  | noSuchRegister reg => exact happend (happend (List.prefix_refl _))
  | noSuchKey key => exact happend (happend (List.prefix_refl _))
  | io text => exact happend (List.prefix_refl _)

/-- the ways to begin -/
def openings : List String :=
  ["program is ", "invalid opcode 0x", "stack overflow calling from 0x", "stack underflow returning from 0x",
    "address 0x", "register V", "key 0x", "io error: "]

theorem opening_mem (f : Fault) : f.opening ∈ openings := by
  cases f <;> simp [opening, openings]

/-- no way to begin begins another one -/
theorem openings_apart : ∀ a ∈ openings, ∀ b ∈ openings, a.toList <+: b.toList → a = b := by
  decide +kernel

theorem opening_eq_of_message_eq {f g : Fault} (h : f.message = g.message) : f.opening = g.opening := by
  rcases List.prefix_or_prefix_of_prefix f.opening_prefix (h ▸ g.opening_prefix) with hpre | hpre
  · exact openings_apart _ f.opening_mem _ g.opening_mem hpre
  · exact (openings_apart _ g.opening_mem _ f.opening_mem hpre).symm

/-- two words in a text, the second one at its end -/
theorem words_eq_of_text_eq {a b : String} {w x w' x' : UInt16}
    (h : a ++ Hex.lower 4 w.toNat ++ b ++ Hex.lower 4 x.toNat =
      a ++ Hex.lower 4 w'.toNat ++ b ++ Hex.lower 4 x'.toNat) : w = w' ∧ x = x' := by
  have hlist := congrArg String.toList h
  rw [String.toList_append, String.toList_append (s := a ++ Hex.lower 4 w'.toNat ++ b)] at hlist
  -- the second word takes four places in both texts, so they can be cut before it
  obtain ⟨hfirst, hsecond⟩ := List.append_inj' hlist (by
    rw [Hex.lower, Hex.lower, String.toList_ofList, String.toList_ofList, Hex.length_lowerDigits_word,
      Hex.length_lowerDigits_word])
  have hword := (String.append_right_inj a).1 ((String.append_left_inj b).1 (String.toList_inj.1 hfirst))
  exact ⟨UInt16.toNat_inj.1 (Hex.lower_injective 4 hword),
    UInt16.toNat_inj.1 (Hex.lower_injective 4 (String.toList_inj.1 hsecond))⟩

/-- **Messages tell faults apart.** Recoverable faults with one message are the same fault. -/
theorem eq_of_message_eq {f g : Fault} (hf : f.recoverable = true) (hg : g.recoverable = true)
    (h : f.message = g.message) : f = g := by
  have hopen := opening_eq_of_message_eq h
  cases f with
  | programTooLarge len max => cases hf
  | io text => cases hf
  | invalidOpcode opcode addr =>
    cases g with
    | invalidOpcode opcode' addr' =>
      obtain ⟨rfl, rfl⟩ := words_eq_of_text_eq h
      rfl
    | _ => simp [opening] at hopen
  | stackOverflow pc =>
    cases g with
    | stackOverflow pc' =>
      have hpc := Hex.lower_injective 4 ((String.append_right_inj _).1 h)
      rw [UInt16.toNat_inj.1 hpc]
    | _ => simp [opening] at hopen
  | stackUnderflow pc =>
    cases g with
    | stackUnderflow pc' =>
      have hpc := Hex.lower_injective 4 ((String.append_right_inj _).1 h)
      rw [UInt16.toNat_inj.1 hpc]
    | _ => simp [opening] at hopen
  | outOfBounds addr =>
    cases g with
    | outOfBounds addr' =>
      have haddr := Hex.lower_injective 4 ((String.append_right_inj _).1 ((String.append_left_inj _).1 h))
      rw [haddr]
    | _ => simp [opening] at hopen
  | noSuchRegister reg =>
    cases g with
    | noSuchRegister reg' =>
      have hreg := Hex.upper_injective ((String.append_right_inj _).1 ((String.append_left_inj _).1 h))
      rw [hreg]
    | _ => simp [opening] at hopen
  | noSuchKey key =>
    cases g with
    | noSuchKey key' =>
      have hkey := Hex.lower_injective 2 ((String.append_right_inj _).1 ((String.append_left_inj _).1 h))
      rw [UInt8.toNat_inj.1 hkey]
    | _ => simp [opening] at hopen

end Fault

end Chip8
