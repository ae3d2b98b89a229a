/-
Texts of addresses. An address is written as a hexadecimal number after one prefix or none, with white space around.
Reading takes the white space and the prefixes off and reads the number that is left.

What is taken off and what is read are told apart by their characters: no digit is white space, the mark of a prefix,
or the plus sign. So the prefixes never take a digit with them, and the marks of a text say how many prefixes it has.

Results:
- `digits_around`, `exists_around_digits`: what is taken off a text, and what is left of it;
- `parse_around`: what a text with a number in it is read as;
- `accepted_texts`: which texts are accepted, and which of them are written in no documented form;
- `parse_written`: an address that is written out is read back, and a larger number is an error.
-/
import Mathlib.Data.List.Count
import Mathlib.Data.List.TakeWhile
import Chip8.Address
import Chip8.Proofs.Text.Numeral

namespace Chip8

open Chip8.Text Chip8.Text.Hex

namespace Text

/-! ## White space around a text -/

/-- white space to put before and after a text -/
structure Margins where
  before : List Char
  after : List Char
  blank_before : ∀ c ∈ before, isBlank c = true
  blank_after : ∀ c ∈ after, isBlank c = true

/-- a text with white space around it -/
def Margins.around (m : Margins) (cs : List Char) : List Char :=
  m.before ++ cs ++ m.after

theorem dropWhile_blank_append {cs : List Char} (hcs : cs ≠ []) (hplain : ∀ c ∈ cs, isBlank c = false)
    (ds : List Char) : (cs ++ ds).dropWhile isBlank = cs ++ ds := by
  obtain ⟨c, cs, rfl⟩ := List.exists_cons_of_ne_nil hcs
  rw [List.cons_append, List.dropWhile_cons_of_neg]
  rw [hplain c List.mem_cons_self]
  exact Bool.false_ne_true

/-- white space around a text is taken off, and nothing else -/
theorem trim_around (m : Margins) {cs : List Char} (hcs : cs ≠ []) (hplain : ∀ c ∈ cs, isBlank c = false) :
    trim (m.around cs) = cs := by
  have hfront : (m.around cs).dropWhile isBlank = cs ++ m.after := by
    rw [Margins.around, List.append_assoc, List.dropWhile_append_of_pos m.blank_before,
      dropWhile_blank_append hcs hplain]
  have hback : (cs ++ m.after).reverse.dropWhile isBlank = cs.reverse := by
    rw [List.reverse_append, List.dropWhile_append_of_pos fun c hc => m.blank_after c (List.mem_reverse.1 hc)]
    have hplain' : ∀ c ∈ cs.reverse, isBlank c = false := fun c hc => hplain c (List.mem_reverse.1 hc)
    have h := dropWhile_blank_append (List.reverse_ne_nil_iff.2 hcs) hplain' []
    rwa [List.append_nil] at h
  rw [trim, hfront, hback, List.reverse_reverse]

theorem exists_around_trim (cs : List Char) : ∃ m : Margins, cs = m.around (trim cs) := by
  let rest := cs.dropWhile isBlank
  have hfront : cs = cs.takeWhile isBlank ++ rest := List.takeWhile_append_dropWhile.symm
  have hback : rest = trim cs ++ (rest.reverse.takeWhile isBlank).reverse := by
    rw [trim, ← List.reverse_append, List.takeWhile_append_dropWhile, List.reverse_reverse]
  refine ⟨⟨cs.takeWhile isBlank, (rest.reverse.takeWhile isBlank).reverse, ?_, ?_⟩, ?_⟩
  · exact fun c hc => List.mem_takeWhile_imp hc
  · exact fun c hc => List.mem_takeWhile_imp (List.mem_reverse.1 hc)
  · rw [Margins.around, List.append_assoc, ← hback]
    exact hfront

end Text

namespace Address

/-! ## Prefixes -/

/-- how often each prefix stands before a number, `0x` first, then `0X`, then `$` -/
structure Prefixes where
  small : Nat
  capital : Nat
  dollars : Nat

/-- a zero and a letter, as often as given -/
def zeroLetters (x : Char) (k : Nat) : List Char :=
  (List.replicate k ['0', x]).flatten

/-- the prefixes as text -/
def Prefixes.toList (p : Prefixes) : List Char :=
  zeroLetters 'x' p.small ++ zeroLetters 'X' p.capital ++ List.replicate p.dollars '$'

theorem zeroLetters_succ (x : Char) (k : Nat) : zeroLetters x (k + 1) = '0' :: x :: zeroLetters x k := rfl

theorem exists_zeroLetters (x : Char) (cs : List Char) : ∃ k, cs = zeroLetters x k ++ dropZeroLetter x cs := by
  fun_induction dropZeroLetter x cs with
  | case1 cs ih =>
    obtain ⟨k, hk⟩ := ih
    refine ⟨k + 1, ?_⟩
    rw [zeroLetters_succ, List.cons_append, List.cons_append, ← hk]
  | case2 c cs hc => exact ⟨0, rfl⟩
  | case3 cs h => exact ⟨0, rfl⟩

/-- every such pair in front is taken off; what has no such letter in it keeps all its characters -/
theorem dropZeroLetter_append {x : Char} (k : Nat) {cs : List Char} (h : x ∉ cs) :
    dropZeroLetter x (zeroLetters x k ++ cs) = cs := by
  induction k with
  | zero =>
    show dropZeroLetter x cs = cs
    unfold dropZeroLetter
    split
    case h_1 c cs =>
      have hc : c ≠ x := by
        rintro rfl
        exact h (List.mem_cons_of_mem _ List.mem_cons_self)
      rw [if_neg hc]
    case h_2 => rfl
  | succ k ih =>
    rw [zeroLetters_succ, List.cons_append, List.cons_append, dropZeroLetter, if_pos rfl]
    exact ih

theorem mem_zeroLetters {x c : Char} {k : Nat} (h : c ∈ zeroLetters x k) : c = '0' ∨ c = x := by
  obtain ⟨pair, hpair, hc⟩ := List.mem_flatten.1 h
  rw [List.eq_of_mem_replicate hpair] at hc
  simpa using hc

/-- the letters and the sign that prefixes are told by -/
def isMark (c : Char) : Bool :=
  c == 'x' || c == 'X' || c == '$'

theorem mem_prefixes {p : Prefixes} {c : Char} (h : c ∈ p.toList) : c = '0' ∨ isMark c = true := by
  unfold Prefixes.toList at h
  rcases List.mem_append.1 h with h | h
  · rcases List.mem_append.1 h with h | h
    · rcases mem_zeroLetters h with rfl | rfl
      · exact Or.inl rfl
      · exact Or.inr rfl
    · rcases mem_zeroLetters h with rfl | rfl
      · exact Or.inl rfl
      · exact Or.inr rfl
  · rw [List.eq_of_mem_replicate h]
    exact Or.inr rfl

theorem isBlank_of_isMark {c : Char} (h : isMark c = true) : isBlank c = false := by
  simp only [isMark, Bool.or_eq_true, beq_iff_eq] at h
  rcases h with (rfl | rfl) | rfl <;> decide

/-- **What is taken off.** White space and prefixes are taken off a text that has neither in it. -/
theorem digits_around (m : Margins) (p : Prefixes) {cs : List Char} (hcs : cs ≠ [])
    (hplain : ∀ c ∈ cs, isBlank c = false ∧ isMark c = false) : digits (m.around (p.toList ++ cs)) = cs := by
  have hmark : ∀ c, isMark c = true → c ∉ cs := by
    intro c hc hmem
    rw [(hplain c hmem).2] at hc
    cases hc
  have htrim : trim (m.around (p.toList ++ cs)) = p.toList ++ cs := by
    refine trim_around m (List.append_ne_nil_of_right_ne_nil _ hcs) ?_
    intro c hc
    rcases List.mem_append.1 hc with hc | hc
    · rcases mem_prefixes hc with rfl | hc
      · decide
      · exact isBlank_of_isMark hc
    · exact (hplain c hc).1
  have hsmall : 'x' ∉ zeroLetters 'X' p.capital ++ (List.replicate p.dollars '$' ++ cs) := by
    intro h
    rcases List.mem_append.1 h with h | h
    · rcases mem_zeroLetters h with h | h
      · exact absurd h (by decide)
      · exact absurd h (by decide)
    · rcases List.mem_append.1 h with h | h
      · exact absurd (List.eq_of_mem_replicate h) (by decide)
      · exact hmark _ rfl h
  have hcapital : 'X' ∉ List.replicate p.dollars '$' ++ cs := by
    intro h
    rcases List.mem_append.1 h with h | h
    · exact absurd (List.eq_of_mem_replicate h) (by decide)
    · exact hmark _ rfl h
  have hdollars : (List.replicate p.dollars '$' ++ cs).dropWhile (· = '$') = cs := by
    obtain ⟨c, cs, rfl⟩ := List.exists_cons_of_ne_nil hcs
    have hc : c ≠ '$' := by
      rintro rfl
      exact hmark _ rfl List.mem_cons_self
    rw [List.dropWhile_append_of_pos, List.dropWhile_cons_of_neg]
    · simpa using hc
    · intro c hc
      simpa using List.eq_of_mem_replicate hc
  rw [digits, htrim, Prefixes.toList, List.append_assoc, List.append_assoc, dropZeroLetter_append _ hsmall,
    dropZeroLetter_append _ hcapital, hdollars]

/-- a text is what is left of it with what is taken off around it -/
theorem exists_around_digits (cs : List Char) :
    ∃ (m : Margins) (p : Prefixes), cs = m.around (p.toList ++ digits cs) := by
  obtain ⟨m, hm⟩ := exists_around_trim cs
  obtain ⟨small, hsmall⟩ := exists_zeroLetters 'x' (trim cs)
  let afterSmall := dropZeroLetter 'x' (trim cs)
  obtain ⟨capital, hcapital⟩ := exists_zeroLetters 'X' afterSmall
  let afterCapital := dropZeroLetter 'X' afterSmall
  let dollars := (afterCapital.takeWhile (· = '$')).length
  have hdollars : afterCapital = List.replicate dollars '$' ++ digits cs := by
    have htaken : afterCapital.takeWhile (· = '$') = List.replicate dollars '$' :=
      List.eq_replicate_of_mem fun c hc => by simpa using List.mem_takeWhile_imp hc
    rw [← htaken]
    exact List.takeWhile_append_dropWhile.symm
  refine ⟨m, ⟨small, capital, dollars⟩, ?_⟩
  calc cs = m.around (trim cs) := hm
    _ = m.around (zeroLetters 'x' small ++ (zeroLetters 'X' capital ++ (List.replicate dollars '$' ++ digits cs))) := by
      rw [← hdollars, ← hcapital, ← hsmall]
    _ = m.around (Prefixes.toList ⟨small, capital, dollars⟩ ++ digits cs) := by
      rw [Prefixes.toList, List.append_assoc, List.append_assoc]

/-! ## Texts with a number in them -/

/-- the digits of a number are none of the characters that stand around it -/
theorem plain_of_isDigit {c : Char} {d : Nat} (h : IsDigit c d) :
    isBlank c = false ∧ isMark c = false ∧ c ≠ '+' := by
  obtain ⟨hd, rfl | rfl⟩ := h <;> decide +revert

theorem plain_of_signed {cs : List Char} {n : Nat} (h : Numeral cs n) (plus : Bool) :
    ∀ c ∈ signed plus cs, isBlank c = false ∧ isMark c = false := by
  have hdigits : ∀ c ∈ cs, isBlank c = false ∧ isMark c = false := by
    intro c hc
    obtain ⟨d, hd⟩ := h.isDigit_of_mem hc
    obtain ⟨hblank, hmark, -⟩ := plain_of_isDigit hd
    exact ⟨hblank, hmark⟩
  cases plus with
  | false => exact hdigits
  | true => exact List.forall_mem_cons.2 ⟨by decide, hdigits⟩

/-- **Reading a text.** A number in it, with anything around it that is taken off, is read as the address it stands
for, and is an error when it is larger than the last address. -/
theorem parse_around {text : String} {m : Margins} {p : Prefixes} {plus : Bool} {cs : List Char} {n : Nat}
    (h : Numeral cs n) (htext : text.toList = m.around (p.toList ++ signed plus cs)) :
    parse text = if n ≤ last then .ok n.toUInt16
      else if n ≤ 0xFFFF then .error (.pastEnd text) else .error (.unreadable text .tooLarge) := by
  have hne : signed plus cs ≠ [] := by
    cases plus with
    | false => exact h.ne_nil
    | true => exact List.cons_ne_nil _ _
  rw [parse, htext, digits_around m p hne (plain_of_signed h plus), readUnsigned_signed h]
  by_cases hword : n ≤ 0xFFFF
  · rw [if_pos hword, if_pos hword]
  · have hlast : ¬ n ≤ last := by
      unfold last
      omega
    rw [if_neg hword, if_neg hword, if_neg hlast]

/-! ## Documented forms -/

/-- the prefix of an address, if it has one -/
inductive Marker where
  | bare
  | zeroX
  | zeroCapitalX
  | dollar
  deriving DecidableEq, Repr

namespace Marker

/-- the prefix as one of those that are taken off -/
def prefixes : Marker → Prefixes
  | bare => ⟨0, 0, 0⟩
  | zeroX => ⟨1, 0, 0⟩
  | zeroCapitalX => ⟨0, 1, 0⟩
  | dollar => ⟨0, 0, 1⟩

/-- the prefix as text -/
def toList : Marker → List Char
  | bare => []
  | zeroX => ['0', 'x']
  | zeroCapitalX => ['0', 'X']
  | dollar => ['$']

theorem toList_prefixes (marker : Marker) : marker.prefixes.toList = marker.toList := by
  cases marker <;> rfl

end Marker

/-- a text in one of the documented forms for a number: at most one prefix, digits, and white space around -/
def Documented (text : String) (n : Nat) : Prop :=
  ∃ (m : Margins) (marker : Marker) (cs : List Char), Numeral cs n ∧ text.toList = m.around (marker.toList ++ cs)

theorem countP_zeroLetters {x : Char} (hx : isMark x = true) (k : Nat) : (zeroLetters x k).countP isMark = k := by
  induction k with
  | zero => rfl
  | succ k ih => rw [zeroLetters_succ, List.countP_cons_of_neg (by decide), List.countP_cons_of_pos hx, ih]

theorem countP_prefixes (p : Prefixes) : p.toList.countP isMark = p.small + p.capital + p.dollars := by
  rw [Prefixes.toList, List.countP_append, List.countP_append, countP_zeroLetters (by decide),
    countP_zeroLetters (by decide), List.countP_replicate, if_pos (by decide)]

theorem countP_blank {cs : List Char} (h : ∀ c ∈ cs, isBlank c = true) : cs.countP isMark = 0 := by
  refine List.countP_eq_zero.2 fun c hc hmark => ?_
  have hblank := h c hc
  rw [isBlank_of_isMark hmark] at hblank
  cases hblank

/-- in a text with a number in it, each prefix shows by its mark -/
theorem countP_around (m : Margins) (p : Prefixes) (plus : Bool) {cs : List Char} {n : Nat} (h : Numeral cs n) :
    (m.around (p.toList ++ signed plus cs)).countP isMark = p.small + p.capital + p.dollars := by
  have hdigits : (signed plus cs).countP isMark = 0 :=
    List.countP_eq_zero.2 fun c hc hmark => by simp [(plain_of_signed h plus c hc).2] at hmark
  rw [Margins.around, List.countP_append, List.countP_append, List.countP_append, countP_blank m.blank_before,
    countP_blank m.blank_after, countP_prefixes, hdigits]
  omega

/-- and the plus sign by itself -/
theorem plus_mem_around (m : Margins) (p : Prefixes) (plus : Bool) {cs : List Char} {n : Nat} (h : Numeral cs n) :
    '+' ∈ m.around (p.toList ++ signed plus cs) ↔ plus = true := by
  have hbefore : '+' ∉ m.before := fun hc => absurd (m.blank_before _ hc) (by decide)
  have hafter : '+' ∉ m.after := fun hc => absurd (m.blank_after _ hc) (by decide)
  have hprefixes : '+' ∉ p.toList := by
    intro hc
    rcases mem_prefixes hc with hc | hc
    · exact absurd hc (by decide)
    · exact absurd hc (by decide)
  have hdigits : '+' ∉ cs := by
    intro hc
    obtain ⟨d, hd⟩ := h.isDigit_of_mem hc
    exact (plain_of_isDigit hd).2.2 rfl
  cases plus with
  | false => simp [Margins.around, signed, hbefore, hafter, hprefixes, hdigits]
  | true => simp [Margins.around, signed]

/-- a documented form has at most one mark and no plus sign -/
theorem Documented.plain {text : String} {n : Nat} (h : Documented text n) :
    text.toList.countP isMark ≤ 1 ∧ '+' ∉ text.toList := by
  obtain ⟨m, marker, cs, hcs, htext⟩ := h
  have htext' : text.toList = m.around (marker.prefixes.toList ++ signed false cs) := by
    rw [marker.toList_prefixes]
    exact htext
  constructor
  · rw [htext', countP_around m _ _ hcs]
    cases marker <;> decide
  · rw [htext', plus_mem_around m _ _ hcs]
    exact Bool.false_ne_true

theorem exists_marker {p : Prefixes} (h : p.small + p.capital + p.dollars ≤ 1) :
    ∃ marker : Marker, marker.prefixes = p := by
  obtain ⟨small, capital, dollars⟩ := p
  dsimp only at h
  by_cases hsmall : small = 1
  · obtain ⟨rfl, rfl⟩ : capital = 0 ∧ dollars = 0 := by omega
    exact ⟨.zeroX, by rw [hsmall]; rfl⟩
  · by_cases hcapital : capital = 1
    · obtain ⟨rfl, rfl⟩ : small = 0 ∧ dollars = 0 := by omega
      exact ⟨.zeroCapitalX, by rw [hcapital]; rfl⟩
    · obtain ⟨rfl, rfl⟩ : small = 0 ∧ capital = 0 := by omega
      by_cases hdollars : dollars = 1
      · exact ⟨.dollar, by rw [hdollars]; rfl⟩
      · obtain rfl : dollars = 0 := by omega
        exact ⟨.bare, rfl⟩

theorem toNat_toUInt16 {n : Nat} (h : n ≤ last) : n.toUInt16.toNat = n := by
  unfold last at h
  exact UInt16.toNat_ofNat_of_lt' (by unfold UInt16.size; omega)

/-- what is accepted is a number with something around it that is taken off -/
theorem exists_of_parse {text : String} {addr : UInt16} (h : parse text = .ok addr) :
    addr.toNat ≤ last ∧ ∃ (m : Margins) (p : Prefixes) (plus : Bool) (cs : List Char),
      Numeral cs addr.toNat ∧ text.toList = m.around (p.toList ++ signed plus cs) := by
  unfold parse at h
  cases hread : readUnsigned 16 0xFFFF (digits text.toList) with
  | error why =>
    rw [hread] at h
    cases h
  | ok n =>
    rw [hread] at h
    obtain ⟨plus, cs, hcs, hnumeral, hword⟩ := signed_of_readUnsigned hread
    obtain ⟨m, p, htext⟩ := exists_around_digits text.toList
    rw [hcs] at htext
    by_cases hn : n ≤ last
    · dsimp only at h
      rw [if_pos hn] at h
      cases h
      rw [toNat_toUInt16 hn]
      exact ⟨hn, m, p, plus, cs, hnumeral, htext⟩
    · dsimp only at h
      rw [if_neg hn] at h
      cases h

/-- **Which texts are accepted.** A text is read as an address just when the address lies in memory and the text is, with
white space around it, a numeral for the address that stands after any prefixes and perhaps a plus sign: `0x` any number
of times, then `0X`, then `$`. So a text may have more prefixes than one of the documented forms has, or a sign; of the
texts that are accepted, those in a documented form are those with at most one prefix and no sign. -/
theorem accepted_texts (text : String) (addr : UInt16) :
    (parse text = .ok addr ↔ addr.toNat ≤ 0xFFF ∧
      ∃ (m : Margins) (p : Prefixes) (plus : Bool) (cs : List Char),
        Numeral cs addr.toNat ∧ text.toList = m.around (p.toList ++ signed plus cs)) ∧
    (parse text = .ok addr →
      (Documented text addr.toNat ↔ text.toList.countP isMark ≤ 1 ∧ '+' ∉ text.toList)) := by
  constructor
  · constructor
    · exact exists_of_parse
    · rintro ⟨hlast, m, p, plus, cs, hcs, htext⟩
      have hlast' : addr.toNat ≤ last := hlast
      rw [parse_around hcs htext, if_pos hlast']
      exact congrArg Except.ok UInt16.ofNat_toNat
  · intro hparse
    obtain ⟨-, m, p, plus, cs, hcs, htext⟩ := exists_of_parse hparse
    constructor
    · exact Documented.plain
    · rintro ⟨hcount, hplus⟩
      rw [htext, countP_around m p plus hcs] at hcount
      rw [htext, plus_mem_around m p plus hcs] at hplus
      obtain ⟨marker, hmarker⟩ := exists_marker hcount
      refine ⟨m, marker, cs, hcs, ?_⟩
      rw [htext, ← marker.toList_prefixes, hmarker, Bool.eq_false_of_not_eq_true hplus]
      rfl

/-- Two prefixes and a sign: read as 0x2A4, and no documented form of it. -/
theorem prefixes_and_sign_read :
    parse "\t0X$+2a4 " = .ok 0x2A4 ∧ ¬ Documented "\t0X$+2a4 " 0x2A4 := by
  have hread : parse "\t0X$+2a4 " = .ok 0x2A4 := by decide
  obtain ⟨-, hforms⟩ := accepted_texts "\t0X$+2a4 " 0x2A4
  exact ⟨hread, fun h => absurd ((hforms hread).1 h) (by decide)⟩

/-- a prefix written twice, and a number with a sign, are read as addresses though neither is a documented form -/
theorem undocumented_texts_accepted :
    (parse "0x0x1" = .ok 1 ∧ ¬ ∃ n, Documented "0x0x1" n) ∧ (parse "+1" = .ok 1 ∧ ¬ ∃ n, Documented "+1" n) := by
  refine ⟨⟨by decide, ?_⟩, by decide, ?_⟩
  · rintro ⟨n, h⟩
    exact absurd h.plain.1 (by decide)
  · rintro ⟨n, h⟩
    exact absurd h.plain.2 (by decide)

/-! ## Addresses written out -/

/-- **Addresses are read back.** Write any number in base sixteen, after any of the prefixes or none, with any zeros in
front of it, with each digit in lower or in upper case, and with any white space before and after. It is read as that
number when it is at most 0xFFF, and is an error when it is larger, however many digits it has. -/
theorem parse_written (m : Margins) (marker : Marker) (zeros : Nat) (capital : Nat → Bool) (n : Nat) :
    let text := String.ofList (m.around (marker.toList ++ written zeros capital n))
    (parse text).map UInt16.toNat =
      if n ≤ 0xFFF then .ok n
      else if n ≤ 0xFFFF then .error (.pastEnd text) else .error (.unreadable text .tooLarge) := by
  intro text
  have htext : text.toList = m.around (marker.prefixes.toList ++ signed false (written zeros capital n)) := by
    rw [marker.toList_prefixes]
    exact String.toList_ofList
  rw [parse_around (numeral_written zeros capital n) htext]
  unfold last
  by_cases hn : n ≤ 0xFFF
  · rw [if_pos hn, if_pos hn, Except.map, toNat_toUInt16 hn]
  · rw [if_neg hn, if_neg hn]
    split
    · rfl
    · rfl

example : parse "\u30000X0000fFf\t" = .ok 0xFFF := by decide

end Address

end Chip8
