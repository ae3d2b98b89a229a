/-
The screen as a grid of 2048 positions, counted in row-major order.

Results:
- `ext_pixel`: two screens with the same pixels are the same;
- `litCount_eq_countP`, `litCount_eq_card`: how many pixels are lit, counted along the order and as a set of positions.
-/
import Mathlib.Data.Fintype.EquivFin
import Mathlib.Data.Fintype.Prod
import Mathlib.Data.List.FinRange
import Chip8.Screen

namespace Chip8

attribute [ext] Position

namespace Position

/-- a position is its column and its row -/
def equivPair : Position ≃ Fin 64 × Fin 32 where
  toFun p := (p.x, p.y)
  invFun q := ⟨q.1, q.2⟩
  left_inv _ := rfl
  right_inv _ := rfl

-- irreducible, so that no proof about a set of positions goes through all of them
@[irreducible] instance : Fintype Position :=
  Fintype.ofEquiv _ equivPair.symm

theorem exists_index {n : Nat} (h : n < 2048) : ∃ p : Position, p.index = n := by
  refine ⟨⟨⟨n % 64, by omega⟩, ⟨n / 64, by omega⟩⟩, ?_⟩
  show n / 64 * 64 + n % 64 = n
  omega

theorem of?_eq_some_iff {x y : Nat} {p : Position} : of? x y = some p ↔ p.x.val = x ∧ p.y.val = y := by
  unfold of?
  constructor
  · intro h
    split at h
    · cases h
      exact ⟨rfl, rfl⟩
    · cases h
  · rintro ⟨rfl, rfl⟩
    exact dif_pos ⟨p.x.isLt, p.y.isLt⟩

end Position

namespace Screen

/-- is the pixel with this number lit? -/
def cell (s : Screen) (n : Nat) : Bool :=
  s.cells[n]?.getD false

theorem cell_index (s : Screen) (p : Position) : s.cell p.index = s.pixel p := by
  rw [cell, Vector.getElem?_eq_getElem p.index_lt]
  rfl

theorem lit_position (s : Screen) (p : Position) : s.lit p.x.val p.y.val = s.pixel p := by
  unfold lit
  rw [Position.of?_eq_some_iff.2 ⟨rfl, rfl⟩]

theorem lit_eq_true_iff {s : Screen} {x y : Nat} :
    s.lit x y = true ↔ ∃ p : Position, p.x.val = x ∧ p.y.val = y ∧ s.pixel p = true := by
  constructor
  · intro h
    unfold lit at h
    cases hp : Position.of? x y with
    | none => simp [hp] at h
    | some p =>
      obtain ⟨hx, hy⟩ := Position.of?_eq_some_iff.1 hp
      rw [hp] at h
      exact ⟨p, hx, hy, h⟩
  · rintro ⟨p, rfl, rfl, h⟩
    rw [lit_position, h]

/-- a screen is what its pixels are -/
theorem ext_pixel {s t : Screen} (h : ∀ p, s.pixel p = t.pixel p) : s = t := by
  have hcells : s.cells = t.cells := by
    apply Vector.ext
    intro n hn
    obtain ⟨p, rfl⟩ := Position.exists_index hn
    exact h p
  cases s
  cases t
  exact congrArg Screen.mk hcells

/-! ## Counting -/

theorem litCount_eq_countP (s : Screen) : s.litCount = (List.range 2048).countP s.cell := by
  have hcells : s.cells.toList = (List.finRange 2048).map fun n => s.cell n.val := by
    apply List.ext_getElem
    · simp
    · intro n hn _
      simp [cell]
  calc s.litCount
      = s.cells.toList.count true := Vector.count_toList.symm
    _ = ((List.finRange 2048).map fun n => s.cell n.val).count true := by rw [hcells]
    _ = ((List.finRange 2048).map Fin.val).countP s.cell := by
        rw [List.count, List.countP_map, List.countP_map]
        exact List.countP_congr fun n _ => by simp
    _ = (List.range 2048).countP s.cell := by rw [List.map_coe_finRange_eq_range]

theorem card_filter_range (f : Nat → Bool) (n : Nat) :
    ((Finset.range n).filter fun k => f k = true).card = (List.range n).countP f := by
  induction n with
  | zero => rfl
  | succ n ih =>
    rw [Finset.range_add_one, Finset.filter_insert, List.range_succ, List.countP_append, ← ih, List.countP_singleton]
    by_cases hf : f n = true
    · rw [if_pos hf, if_pos hf, Finset.card_insert_of_notMem (by simp)]
    · rw [if_neg hf, if_neg hf]
      rfl

/-- the lit positions -/
def litSet (s : Screen) : Finset Position :=
  Finset.univ.filter fun p => s.pixel p = true

theorem mem_litSet {s : Screen} {p : Position} : p ∈ s.litSet ↔ s.pixel p = true := by
  simp [litSet]

theorem litCount_eq_card (s : Screen) : s.litCount = s.litSet.card := by
  rw [litCount_eq_countP, ← card_filter_range]
  symm
  refine Finset.card_bij (fun p _ => p.index) ?_ ?_ ?_
  · intro p hp
    have hcell : s.cell p.index = true := (s.cell_index p).trans (mem_litSet.1 hp)
    exact Finset.mem_filter.2 ⟨Finset.mem_range.2 p.index_lt, hcell⟩
  · intro p _ q _ h
    exact Position.index_injective h
  · intro n hn
    obtain ⟨hlt, hcell⟩ := Finset.mem_filter.1 hn
    obtain ⟨p, rfl⟩ := Position.exists_index (Finset.mem_range.1 hlt)
    have hp : s.pixel p = true := (s.cell_index p).symm.trans hcell
    exact ⟨p, mem_litSet.2 hp, rfl⟩

end Screen

end Chip8
