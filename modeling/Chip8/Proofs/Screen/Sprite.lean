/-
Sprites as sets of pixels. A sprite with its corner at some column and row covers the positions on the screen where it
has a set bit (`covers`); what would lie past the right or the bottom edge covers nothing, and nothing comes back in at
the other side. Drawing goes through the covered positions one by one, and through none of them twice, so that the whole
drawing is one exclusive or.

Results:
- `mem_coverage`, `nodup_coverage`: drawing goes through the covered positions, each once;
- `pixel_drawSprite`: every pixel is switched over just when it is covered;
- `collision_drawSprite`: a collision is a covered pixel that was lit.
-/
import Mathlib.Data.List.Nodup
import Chip8.Proofs.Screen.Grid

namespace Chip8.Screen

/-- does a sprite with its corner at `(x, y)` have a set bit on this position? Its rows go down from the corner, and the
top bit of a row is the leftmost. -/
def covers (x y : Nat) (rows : List UInt8) (p : Position) : Bool :=
  if x ≤ p.x.val ∧ p.x.val < x + 8 ∧ y ≤ p.y.val ∧ p.y.val < y + rows.length then
    (rows.getD (p.y.val - y) 0).toNat.testBit (7 - (p.x.val - x))
  else false

/-! ## The positions that are drawn -/

theorem mem_rowCoverage {x y : Nat} {row : UInt8} {p : Position} : p ∈ rowCoverage x y row ↔
    p.y.val = y ∧ x ≤ p.x.val ∧ p.x.val < x + 8 ∧ row.toNat.testBit (7 - (p.x.val - x)) = true := by
  rw [rowCoverage, List.mem_filterMap]
  constructor
  · rintro ⟨dx, hdx, hp⟩
    have hlt : dx < 8 := List.mem_range.1 hdx
    split at hp
    case isTrue hbit =>
      obtain ⟨hx, hy⟩ := Position.of?_eq_some_iff.1 hp
      have hdx : p.x.val - x = dx := by omega
      rw [hdx]
      exact ⟨hy, by omega, by omega, hbit⟩
    case isFalse => cases hp
  · rintro ⟨hy, hle, hlt, hbit⟩
    refine ⟨p.x.val - x, List.mem_range.2 (by omega), ?_⟩
    rw [if_pos hbit]
    exact Position.of?_eq_some_iff.2 ⟨by omega, hy⟩

theorem covers_eq_true_iff {x y : Nat} {rows : List UInt8} {p : Position} : covers x y rows p = true ↔
    (x ≤ p.x.val ∧ p.x.val < x + 8 ∧ y ≤ p.y.val ∧ p.y.val < y + rows.length) ∧
      (rows.getD (p.y.val - y) 0).toNat.testBit (7 - (p.x.val - x)) = true := by
  unfold covers
  split
  case isTrue h => exact (and_iff_right h).symm
  case isFalse h => simp [h]

/-- on a line further down, a sprite is what it is without its first row -/
theorem covers_cons_of_ne {x y : Nat} {row : UInt8} {rows : List UInt8} {p : Position} (hy : p.y.val ≠ y) :
    covers x y (row :: rows) p = covers x (y + 1) rows p := by
  unfold covers
  rw [List.length_cons]
  by_cases hin : x ≤ p.x.val ∧ p.x.val < x + 8 ∧ y + 1 ≤ p.y.val ∧ p.y.val < y + 1 + rows.length
  · obtain ⟨k, hk⟩ : ∃ k, p.y.val = y + 1 + k := ⟨p.y.val - (y + 1), by omega⟩
    have hsucc : p.y.val - y = k + 1 := by omega
    have hrest : p.y.val - (y + 1) = k := by omega
    rw [if_pos hin, if_pos (by omega), hsucc, hrest, List.getD_cons_succ]
  · rw [if_neg hin, if_neg (by omega)]

theorem mem_coverage {x y : Nat} {rows : List UInt8} {p : Position} :
    p ∈ coverage x y rows ↔ covers x y rows p = true := by
  induction rows generalizing y with
  | nil => simp [coverage, covers_eq_true_iff]
  | cons row rows ih =>
    rw [coverage, List.mem_append, mem_rowCoverage, ih]
    by_cases hy : p.y.val = y
    · -- the first row, and so none below it
      have hbelow : ¬ covers x (y + 1) rows p = true := by
        rw [covers_eq_true_iff]
        omega
      rw [or_iff_left hbelow, covers_eq_true_iff, hy, Nat.sub_self, List.getD_cons_zero, List.length_cons]
      constructor
      · rintro ⟨-, hle, hlt, hbit⟩
        exact ⟨⟨hle, hlt, Nat.le_refl y, by omega⟩, hbit⟩
      · rintro ⟨⟨hle, hlt, -, -⟩, hbit⟩
        exact ⟨rfl, hle, hlt, hbit⟩
    · rw [covers_cons_of_ne hy, or_iff_right fun h => hy h.1]

theorem nodup_rowCoverage (x y : Nat) (row : UInt8) : (rowCoverage x y row).Nodup := by
  refine List.Nodup.filterMap ?_ List.nodup_range
  intro dx dx' p hp hp'
  split at hp
  case isTrue =>
    split at hp'
    case isTrue =>
      have hx := (Position.of?_eq_some_iff.1 hp).1
      have hx' := (Position.of?_eq_some_iff.1 hp').1
      omega
    case isFalse => cases hp'
  case isFalse => cases hp

/-- no position is drawn twice -/
theorem nodup_coverage (x y : Nat) (rows : List UInt8) : (coverage x y rows).Nodup := by
  induction rows generalizing y with
  | nil => exact List.nodup_nil
  | cons row rows ih =>
    refine List.nodup_append'.2 ⟨nodup_rowCoverage x y row, ih (y + 1), ?_⟩
    intro p hp hp'
    have hy : p.y.val = y := (mem_rowCoverage.1 hp).1
    have hbelow := covers_eq_true_iff.1 (mem_coverage.1 hp')
    omega

/-! ## Drawing -/

/-- striking positions one after the other, none of them twice -/
theorem foldl_strike {ps : List Position} (hps : ps.Nodup) (s : Screen) (hit : Bool) :
    (∀ q, (ps.foldl strike (s, hit)).1.pixel q = (s.pixel q ^^ decide (q ∈ ps))) ∧
      ((ps.foldl strike (s, hit)).2 = true ↔ hit = true ∨ ∃ q ∈ ps, s.pixel q = true) := by
  induction ps generalizing s hit with
  | nil => simp
  | cons p ps ih =>
    obtain ⟨hp, hps⟩ := List.nodup_cons.1 hps
    obtain ⟨hpixel, hflag⟩ := ih hps (s.toggle p) (hit || s.pixel p)
    constructor
    · intro q
      refine (hpixel q).trans ?_
      rw [pixel_toggle]
      by_cases hq : q = p
      · subst hq
        simp [hp]
      · simp [hq]
    · -- the pixels still to come are as they were before
      have hrest : ∀ q ∈ ps, (s.toggle p).pixel q = s.pixel q := by
        intro q hq
        have hne : q ≠ p := fun e => hp (e ▸ hq)
        rw [pixel_toggle, if_neg hne]
      calc (ps.foldl strike (s.toggle p, hit || s.pixel p)).2 = true
          ↔ (hit || s.pixel p) = true ∨ ∃ q ∈ ps, (s.toggle p).pixel q = true := hflag
        _ ↔ (hit || s.pixel p) = true ∨ ∃ q ∈ ps, s.pixel q = true :=
            or_congr_right (exists_congr fun q => and_congr_right fun hq => by rw [hrest q hq])
        _ ↔ hit = true ∨ ∃ q ∈ p :: ps, s.pixel q = true := by
            rw [List.exists_mem_cons_iff, Bool.or_eq_true, or_assoc]

/-- **Drawing** switches every pixel over that the sprite covers, and no other. -/
theorem pixel_drawSprite (s : Screen) (x y : UInt8) (rows : List UInt8) (p : Position) :
    (s.drawSprite x y rows).1.pixel p = (s.pixel p ^^ covers x.toNat y.toNat rows p) := by
  have hdrawn := (foldl_strike (nodup_coverage x.toNat y.toNat rows) s false).1 p
  have hcovers : decide (p ∈ coverage x.toNat y.toNat rows) = covers x.toNat y.toNat rows p := by
    rw [Bool.eq_iff_iff, decide_eq_true_iff]
    exact mem_coverage
  rw [hcovers] at hdrawn
  exact hdrawn

/-- **Collisions.** The flag tells whether the sprite covers a pixel that was lit. -/
theorem collision_drawSprite (s : Screen) (x y : UInt8) (rows : List UInt8) :
    (s.drawSprite x y rows).2 = true ↔ ∃ p, s.pixel p = true ∧ covers x.toNat y.toNat rows p = true := by
  have hflag := (foldl_strike (nodup_coverage x.toNat y.toNat rows) s false).2
  rw [drawSprite, hflag]
  constructor
  · rintro (h | ⟨p, hp, hlit⟩)
    · cases h
    · exact ⟨p, hlit, mem_coverage.1 hp⟩
  · rintro ⟨p, hlit, hp⟩
    exact .inr ⟨p, mem_coverage.2 hp, hlit⟩

end Chip8.Screen
