/-
Hexadecimal numerals, and what reading one comes to. A numeral is one digit, or a numeral with one more digit after it,
each digit in lower or in upper case. Reading goes through the digits from the left, and stops with a number too large
as soon as it passes the largest one allowed; since one more digit never makes a number smaller, that happens just when
the whole number is too large.

Results:
- `digit?_eq_some_iff`: the characters that are read as digits are those that digits are written with;
- `readDigits_numeral`, `readDigits_eq_ok_iff`: what a numeral is read as, and which texts digits are read from;
- `readUnsigned_signed`, `signed_of_readUnsigned`: the same for a number that a plus sign may stand before;
- `numeral_written`: a number written in base sixteen, in any case and with zeros in front, is a numeral for it.
-/
import Mathlib.Data.List.Induction
import Mathlib.Data.Nat.Digits.Defs
import Chip8.Text.Number

namespace Chip8.Text

namespace Hex

/-! ## Digits -/

/-- the character is the digit `d`, in lower or in upper case -/
def IsDigit (c : Char) (d : Nat) : Prop :=
  d < 16 ∧ (c = d.digitChar ∨ c = d.digitChar.toUpper)

/-- a digit is read in either case -/
theorem digit?_digitChar {d : Nat} (h : d < 16) :
    digit? 16 d.digitChar = some d ∧ digit? 16 d.digitChar.toUpper = some d := by
  decide +revert

/-- where the digits lie among the characters: in three runs, of ten, six and six -/
theorem toNat_digitChar {d : Nat} (h : d < 16) :
    d.digitChar.toNat = (if d < 10 then d + 48 else d + 87) ∧ (10 ≤ d → d.digitChar.toUpper.toNat = d + 55) := by
  decide +revert

theorem isDigit_of_digit? {c : Char} {d : Nat} (h : digit? 16 c = some d) : IsDigit c d := by
  unfold digit? at h
  simp only [Option.ite_none_right_eq_some, Option.some.injEq] at h
  obtain ⟨hlt, hvalue⟩ := h
  rw [hvalue] at hlt
  obtain ⟨hlower, hupper⟩ := toNat_digitChar hlt
  refine ⟨hlt, ?_⟩
  rw [← Char.toNat_inj, ← Char.toNat_inj]
  -- the run that the character lies in
  split at hvalue
  case isTrue hdigit =>
    have hrun : 48 ≤ c.toNat ∧ c.toNat ≤ 57 := Char.isDigit_iff_toNat.1 hdigit
    have hzero : '0'.toNat = 48 := rfl
    left
    rw [hlower, if_pos (by omega)]
    omega
  case isFalse =>
    split at hvalue
    case isTrue hletter =>
      have hrun : 97 ≤ c.toNat ∧ c.toNat ≤ 122 := hletter
      have ha : 'a'.toNat = 97 := rfl
      left
      rw [hlower, if_neg (by omega)]
      omega
    case isFalse =>
      split at hvalue
      case isTrue hletter =>
        have hrun : 65 ≤ c.toNat ∧ c.toNat ≤ 90 := hletter
        have ha : 'A'.toNat = 65 := rfl
        right
        rw [hupper (by omega)]
        omega
      case isFalse => omega

/-- **Digits.** A character is read as a digit just when that digit is written with it. -/
theorem digit?_eq_some_iff {c : Char} {d : Nat} : digit? 16 c = some d ↔ IsDigit c d := by
  constructor
  · exact isDigit_of_digit?
  · rintro ⟨hd, rfl | rfl⟩
    · exact (digit?_digitChar hd).1
    · exact (digit?_digitChar hd).2

/-- no digit is written with a character that is not read as one -/
theorem IsDigit.ne {c c' : Char} {d : Nat} (h : IsDigit c d) (h' : digit? 16 c' = none) : c ≠ c' := by
  rintro rfl
  rw [digit?_eq_some_iff.2 h] at h'
  cases h'

/-! ## Numerals -/

/-- one or more digits, the most significant one first, and the number they stand for -/
inductive Numeral : List Char → Nat → Prop where
  | digit {c : Char} {d : Nat} (hd : IsDigit c d) : Numeral [c] d
  | more {cs : List Char} {n : Nat} {c : Char} {d : Nat} (hcs : Numeral cs n) (hd : IsDigit c d) :
      Numeral (cs ++ [c]) (16 * n + d)

namespace Numeral

variable {cs : List Char} {n : Nat}

theorem ne_nil (h : Numeral cs n) : cs ≠ [] := by
  cases h with
  | digit hd => exact List.cons_ne_nil _ _
  | more hcs hd => exact List.append_ne_nil_of_right_ne_nil _ (List.cons_ne_nil _ _)

theorem isDigit_of_mem (h : Numeral cs n) {c : Char} (hc : c ∈ cs) : ∃ d, IsDigit c d := by
  induction h with
  | digit hd =>
    rw [List.mem_singleton] at hc
    exact ⟨_, hc ▸ hd⟩
  | more hcs hd ih =>
    rcases List.mem_append.1 hc with hc | hc
    · exact ih hc
    · rw [List.mem_singleton] at hc
      exact ⟨_, hc ▸ hd⟩

/-- zeros in front do not count -/
theorem zero_cons (h : Numeral cs n) : Numeral ('0' :: cs) n := by
  have hzero : IsDigit '0' 0 := ⟨by decide, Or.inl rfl⟩
  induction h with
  | @digit c d hd =>
    have h0 : 16 * 0 + d = d := by omega
    exact h0 ▸ (Numeral.digit hzero).more hd
  | more hcs hd ih => exact ih.more hd

theorem zeros_append (h : Numeral cs n) (k : Nat) : Numeral (List.replicate k '0' ++ cs) n := by
  induction k with
  | zero => exact h
  | succ k ih => exact ih.zero_cons

end Numeral

/-- the digits of `n`, those at the chosen places in upper case -/
def mixedDigits (capital : Nat → Bool) (n : Nat) : List Char :=
  (Nat.toDigits 16 n).mapIdx fun place c => if capital place then c.toUpper else c

/-- a number as it may be written in base sixteen: zeros in front, and the digits in any case -/
def written (zeros : Nat) (capital : Nat → Bool) (n : Nat) : List Char :=
  List.replicate zeros '0' ++ mixedDigits capital n

theorem isDigit_cased {d : Nat} (h : d < 16) (capital : Bool) :
    IsDigit (if capital then d.digitChar.toUpper else d.digitChar) d := by
  cases capital with
  | false => exact ⟨h, Or.inl rfl⟩
  | true => exact ⟨h, Or.inr rfl⟩

theorem numeral_mixedDigits (capital : Nat → Bool) (n : Nat) : Numeral (mixedDigits capital n) n := by
  induction n using Nat.strongRecOn with
  | ind n ih =>
    unfold mixedDigits at ih ⊢
    by_cases h : n < 16
    · rw [Nat.toDigits_of_lt_base h]
      exact .digit (isDigit_cased h _)
    · have hlast : n % 16 < 16 := Nat.mod_lt n (by decide)
      have hsplit : 16 * (n / 16) + n % 16 = n := Nat.div_add_mod n 16
      have hmore := (ih (n / 16) (by omega)).more (isDigit_cased hlast (capital (Nat.toDigits 16 (n / 16)).length))
      rw [Nat.toDigits_of_base_le (by decide) (Nat.le_of_not_lt h), List.mapIdx_concat]
      rwa [hsplit] at hmore

/-- digits that are all in one case -/
theorem numeral_toDigits (n : Nat) :
    Numeral (Nat.toDigits 16 n) n ∧ Numeral ((Nat.toDigits 16 n).map Char.toUpper) n := by
  have hlower : mixedDigits (fun _ => false) n = Nat.toDigits 16 n :=
    List.ext_getElem (by simp [mixedDigits]) fun place _ _ => by simp [mixedDigits]
  have hupper : mixedDigits (fun _ => true) n = (Nat.toDigits 16 n).map Char.toUpper :=
    List.ext_getElem (by simp [mixedDigits]) fun place _ _ => by simp [mixedDigits]
  exact ⟨hlower ▸ numeral_mixedDigits _ n, hupper ▸ numeral_mixedDigits _ n⟩

/-- **Written numbers.** However a number is written in base sixteen, what is written is a numeral for it. -/
theorem numeral_written (zeros : Nat) (capital : Nat → Bool) (n : Nat) : Numeral (written zeros capital n) n :=
  (numeral_mixedDigits capital n).zeros_append zeros

end Hex

/-! ## Reading digits -/

open Hex

theorem readDigits_append (radix max value : Nat) (cs ds : List Char) :
    readDigits radix max value (cs ++ ds) =
      (readDigits radix max value cs).bind fun value => readDigits radix max value ds := by
  induction cs generalizing value with
  | nil => rfl
  | cons c cs ih =>
    rw [List.cons_append, readDigits, readDigits]
    cases digit? radix c with
    | none => rfl
    | some d =>
      dsimp only
      split
      · exact ih _
      · rfl

/-- **Reading a numeral.** It is read as the number it stands for, unless that is larger than allowed. -/
theorem readDigits_numeral {cs : List Char} {n : Nat} (h : Numeral cs n) (max : Nat) :
    readDigits 16 max 0 cs = if n ≤ max then .ok n else .error .tooLarge := by
  induction h with
  | digit hd =>
    rw [readDigits, digit?_eq_some_iff.2 hd]
    simp only [Nat.zero_mul, Nat.zero_add, readDigits]
  | @more cs n c d hcs hd ih =>
    rw [readDigits_append, ih]
    by_cases hn : n ≤ max
    · rw [if_pos hn, Except.bind, readDigits, digit?_eq_some_iff.2 hd, Nat.mul_comm]
      simp only [readDigits]
    · -- too large already, and larger with one more digit
      rw [if_neg hn, if_neg (by omega)]
      rfl

/-- reading one more digit -/
theorem exists_digit_of_readDigits {c : Char} {value n max : Nat} (h : readDigits 16 max value [c] = .ok n) :
    ∃ d, IsDigit c d ∧ n = 16 * value + d ∧ n ≤ max := by
  rw [readDigits] at h
  cases hdigit : digit? 16 c with
  | none =>
    rw [hdigit] at h
    cases h
  | some d =>
    rw [hdigit] at h
    dsimp only at h
    split at h
    case isTrue hle =>
      cases h
      exact ⟨d, digit?_eq_some_iff.1 hdigit, by omega, hle⟩
    case isFalse => cases h

theorem numeral_of_readDigits {cs : List Char} {n max : Nat} (hcs : cs ≠ []) (h : readDigits 16 max 0 cs = .ok n) :
    Numeral cs n ∧ n ≤ max := by
  induction cs using List.reverseRecOn generalizing n with
  | nil => exact absurd rfl hcs
  | append_singleton cs c ih =>
    rw [readDigits_append] at h
    cases hfirst : readDigits 16 max 0 cs with
    | error why =>
      rw [hfirst] at h
      cases h
    | ok value =>
      rw [hfirst] at h
      obtain ⟨d, hd, rfl, hle⟩ := exists_digit_of_readDigits h
      refine ⟨?_, hle⟩
      by_cases hnil : cs = []
      · subst hnil
        cases hfirst
        rw [Nat.mul_zero, Nat.zero_add]
        exact .digit hd
      · exact (ih hnil hfirst).1.more hd

/-- **Reading digits.** The texts that a number is read from are the numerals for it. -/
theorem readDigits_eq_ok_iff {cs : List Char} {n max : Nat} (hcs : cs ≠ []) :
    readDigits 16 max 0 cs = .ok n ↔ Numeral cs n ∧ n ≤ max := by
  constructor
  · exact numeral_of_readDigits hcs
  · rintro ⟨hnumeral, hle⟩
    rw [readDigits_numeral hnumeral, if_pos hle]

/-! ## Reading numbers -/

/-- digits that a plus sign may stand before -/
def signed (plus : Bool) (digits : List Char) : List Char :=
  if plus then '+' :: digits else digits

/-- a sign does not change what the digits after it are read as -/
theorem readUnsigned_signed_eq {radix max : Nat} {cs : List Char} (hcs : cs ≠ []) (hsign : ∀ ds, cs ≠ '+' :: ds)
    (plus : Bool) : readUnsigned radix max (signed plus cs) = readDigits radix max 0 cs := by
  cases plus with
  | true =>
    show readUnsigned radix max ('+' :: cs) = _
    rw [readUnsigned]
    exact hcs
  | false =>
    show readUnsigned radix max cs = _
    rw [readUnsigned]
    · exact hcs
    · exact hsign []
    · exact hsign

/-- **Reading a number** that a plus sign may stand before. -/
theorem readUnsigned_signed {cs : List Char} {n : Nat} (h : Numeral cs n) (plus : Bool) (max : Nat) :
    readUnsigned 16 max (signed plus cs) = if n ≤ max then .ok n else .error .tooLarge := by
  have hsign : ∀ ds, cs ≠ '+' :: ds := by
    rintro ds rfl
    obtain ⟨d, hd⟩ := h.isDigit_of_mem List.mem_cons_self
    exact hd.ne (by decide) rfl
  rw [readUnsigned_signed_eq h.ne_nil hsign, readDigits_numeral h]

theorem signed_of_readUnsigned {cs : List Char} {n max : Nat} (h : readUnsigned 16 max cs = .ok n) :
    ∃ plus digits, cs = signed plus digits ∧ Numeral digits n ∧ n ≤ max := by
  unfold readUnsigned at h
  split at h
  case h_1 => cases h
  case h_2 => cases h
  case h_3 digits hdigits => exact ⟨true, digits, rfl, (readDigits_eq_ok_iff hdigits).1 h⟩
  case h_4 hcs _ _ => exact ⟨false, cs, rfl, (readDigits_eq_ok_iff hcs).1 h⟩

end Chip8.Text
