/-
The points of a plane one by one. Who plots a plane pulls its points from a counter: the cells below it are those not yet
looked at, and a pull looks at them from the last one down to the first that is in the plane. The counter is all that is
kept from one pull to the next.

Results:
- `pointsBelow_eq_pull`: one pull, and what is listed of the cells that it leaves, list the points of a plane;
- `drains_iff`: pulling comes to an end just when the points can be listed, and gives those points;
- `plane_pulled`: the points of a plane of any grid, which cells they are and where they lie.
-/
import Chip8.Proofs.Screen.Plot

namespace Chip8.Resolution

/-! ## Pulling -/

inductive Pull where
  /-- a cell was looked at whose byte is not there -/
  | outside
  | exhausted
  /-- a point, and how many cells are left -/
  | yielded (p : Point) (left : Nat)
  deriving DecidableEq, Repr

/-- look at the cells that are left, last one first, down to the first that is in the plane -/
def pull (r : Resolution) (data : Array UInt8) (plane : UInt8) : Nat → Pull
  | 0 => .exhausted
  | n + 1 =>
    match bit? data n with
    | none => .outside
    | some b => if b = plane then .yielded (r.point n) n else r.pull data plane n

/-- with so many cells left, pulling comes to an end and gives these points -/
inductive Drains (r : Resolution) (data : Array UInt8) (plane : UInt8) : Nat → List Point → Prop where
  | exhausted {n : Nat} (h : r.pull data plane n = .exhausted) : Drains r data plane n []
  | yielded {n left : Nat} {p : Point} {ps : List Point} (h : r.pull data plane n = .yielded p left)
      (rest : Drains r data plane left ps) : Drains r data plane n (p :: ps)

/-- what a pull lists, together with the cells that it leaves -/
def Pull.points (r : Resolution) (data : Array UInt8) (plane : UInt8) : Pull → Option (List Point)
  | outside => none
  | exhausted => some []
  | yielded p left => (r.pointsBelow data plane left).map (p :: ·)

variable {r : Resolution} {data : Array UInt8} {plane : UInt8}

/-- **One pull.** -/
theorem pointsBelow_eq_pull (n : Nat) :
    r.pointsBelow data plane n = (r.pull data plane n).points r data plane := by
  induction n with
  | zero => rfl
  | succ n ih =>
    rw [pointsBelow, pull]
    cases hbit : bit? data n with
    | none => rfl
    | some b =>
      by_cases hplane : b = plane
      · dsimp only
        rw [if_pos hplane, Pull.points]
        cases r.pointsBelow data plane n with
        | none => rfl
        | some ps => exact congrArg some (if_pos hplane)
      · dsimp only
        rw [if_neg hplane, ← ih]
        cases r.pointsBelow data plane n with
        | none => rfl
        | some ps => exact congrArg some (if_neg hplane)

theorem left_lt_of_pull {n left : Nat} {p : Point} (h : r.pull data plane n = .yielded p left) : left < n := by
  induction n with
  | zero => cases h
  | succ n ih =>
    rw [pull] at h
    cases hbit : bit? data n with
    | none =>
      rw [hbit] at h
      cases h
    | some b =>
      rw [hbit] at h
      by_cases hplane : b = plane
      · dsimp only at h
        rw [if_pos hplane] at h
        obtain ⟨-, rfl⟩ := Pull.yielded.inj h
        exact Nat.lt_succ_self _
      · dsimp only at h
        rw [if_neg hplane] at h
        exact Nat.lt_succ_of_lt (ih h)

/-- **Pulling to the end.** It comes to an end just when the points can be listed, and gives those points. -/
theorem drains_iff {n : Nat} {ps : List Point} :
    Drains r data plane n ps ↔ r.pointsBelow data plane n = some ps := by
  constructor
  · intro h
    induction h with
    | exhausted h => rw [pointsBelow_eq_pull, h, Pull.points]
    | yielded h rest ih => rw [pointsBelow_eq_pull, h, Pull.points, ih, Option.map_some]
  · intro h
    induction n using Nat.strongRecOn generalizing ps with
    | ind n ih =>
      rw [pointsBelow_eq_pull] at h
      cases hpull : r.pull data plane n with
      | outside =>
        rw [hpull] at h
        cases h
      | exhausted =>
        rw [hpull] at h
        cases h
        exact .exhausted hpull
      | yielded p left =>
        rw [hpull, Pull.points] at h
        obtain ⟨rest, hrest, rfl⟩ := Option.map_eq_some_iff.1 h
        exact .yielded hpull (ih left (left_lt_of_pull hpull) hrest)

/-- no pull looks at a cell outside while the data reach to all cells that are left -/
theorem pull_ne_outside {n : Nat} (h : n ≤ 8 * data.size) : r.pull data plane n ≠ .outside := by
  intro hpull
  have hlisted := r.pointsBelow_eq plane h
  rw [pointsBelow_eq_pull, hpull] at hlisted
  cases hlisted

/-! ## The cells of a plane -/

/-- the bit of a cell, the first cell of a byte in its top bit -/
def packedBit (data : Array UInt8) (c : Nat) : Option UInt8 :=
  (data[c / 8]?).map fun b => if b.toNat.testBit (7 - c % 8) then 1 else 0

theorem bit?_eq_packedBit (c : Nat) : bit? data c = packedBit data c := by
  unfold bit? packedBit
  cases data[c / 8]? with
  | none => rfl
  | some b => exact congrArg some (shiftRight_and_one b (by omega))

/-- the cells of a plane, last one first -/
def cellsOf (r : Resolution) (data : Array UInt8) (plane : UInt8) : List Nat :=
  (List.range r.pixelCount).reverse.filter fun c => bit? data c == some plane

theorem mem_cellsOf {c : Nat} : c ∈ r.cellsOf data plane ↔ c < r.pixelCount ∧ packedBit data c = some plane := by
  rw [cellsOf, List.mem_filter, List.mem_reverse, List.mem_range, beq_iff_eq, bit?_eq_packedBit]

theorem cellsOf_descending : (r.cellsOf data plane).Pairwise (· > ·) :=
  (List.pairwise_reverse.2 List.pairwise_lt_range).filter _

/-- column and row tell cells apart -/
theorem coordinates_point_injective {c c' : Nat} (h : (r.point c).coordinates = (r.point c').coordinates) :
    c = c' := by
  obtain ⟨hx, hy⟩ := Prod.mk.inj h
  have hcolumn : c % r.width = c' % r.width := Int.ofNat_inj.1 hx
  have hrow : c / r.width = c' / r.width := Int.ofNat_inj.1 (Int.neg_inj.1 hy)
  rw [← Nat.div_add_mod c r.width, ← Nat.div_add_mod c' r.width, hcolumn, hrow]

/-- the plot of the grid: columns from zero to the right, rows from zero downwards -/
def Inside (r : Resolution) (z : Int × Int) : Prop :=
  0 ≤ z.1 ∧ z.1 ≤ r.maxX ∧ -(r.maxDepth : Int) ≤ z.2 ∧ z.2 ≤ 0

theorem inside_point {c : Nat} (h : c < r.pixelCount) : r.Inside (r.point c).coordinates := by
  have hwidth : 0 < r.width := Nat.pos_of_mul_pos_right (Nat.zero_lt_of_lt h)
  have hcolumn : c % r.width < r.width := Nat.mod_lt c hwidth
  have hrow : c / r.width < r.height := Nat.div_lt_of_lt_mul h
  show 0 ≤ ((c % r.width : Nat) : Int) ∧ ((c % r.width : Nat) : Int) ≤ ((r.width - 1 : Nat) : Int) ∧
    -((r.height - 1 : Nat) : Int) ≤ -((c / r.width : Nat) : Int) ∧ -((c / r.width : Nat) : Int) ≤ 0
  generalize c % r.width = column at hcolumn ⊢
  generalize c / r.width = row at hrow ⊢
  omega

theorem points_eq_cellsOf (h : r.pixelCount ≤ 8 * data.size) :
    r.points data plane = some ((r.cellsOf data plane).map r.point) :=
  r.points_eq plane h

theorem packedBit_of_lt {c : Nat} (h : c < 8 * data.size) :
    packedBit data c = some 0 ∨ packedBit data c = some 1 := by
  have hbyte : c / 8 < data.size := by omega
  rw [packedBit, Array.getElem?_eq_getElem hbyte, Option.map_some]
  split
  · exact Or.inr rfl
  · exact Or.inl rfl

/-- the two planes have all cells between them -/
theorem length_cellsOf_add (h : r.pixelCount ≤ 8 * data.size) :
    (r.cellsOf data 0).length + (r.cellsOf data 1).length = r.pixelCount := by
  have hother : ∀ c ∈ (List.range r.pixelCount).reverse,
      (bit? data c == some 0) = !(bit? data c == some 1) := by
    intro c hc
    have hlt : c < r.pixelCount := List.mem_range.1 (List.mem_reverse.1 hc)
    rw [bit?_eq_packedBit]
    rcases packedBit_of_lt (Nat.lt_of_lt_of_le hlt h) with hbit | hbit
    · rw [hbit]
      rfl
    · rw [hbit]
      rfl
  have hall := (List.filter_append_perm (fun c => bit? data c == some 1) (List.range r.pixelCount).reverse).length_eq
  rw [List.length_append, ← List.filter_congr hother, List.length_reverse, List.length_range] at hall
  rw [Nat.add_comm]
  exact hall

/-- **The points of a plane.** Take a grid of any width and height, and data that reach to its last cell. Pulling the
points of any plane never looks outside the data and comes to an end, and so they can be listed. The points are those
of the cells whose bit is the plane's, the bits of a byte counted from the top: each cell once, the last one first, cell
c of a grid of width w at (c mod w, -(c div w)), and all of them inside the plot. No cell is in a plane but 0 and 1, and
those two have as many points together as the grid has cells. -/
theorem plane_pulled (r : Resolution) (data : Array UInt8) (h : r.pixelCount ≤ 8 * data.size) :
    (∀ plane, ∃ (cells : List Nat) (points : List Point),
      (∀ left ≤ r.pixelCount, r.pull data plane left ≠ .outside) ∧
      Drains r data plane r.pixelCount points ∧ r.points data plane = some points ∧
      points.map Point.coordinates = cells.map (fun c => (((c % r.width : Nat) : Int), -((c / r.width : Nat) : Int))) ∧
      (∀ c, c ∈ cells ↔ c < r.pixelCount ∧ packedBit data c = some plane) ∧
      cells.Pairwise (· > ·) ∧ (points.map Point.coordinates).Nodup ∧
      (∀ z ∈ points.map Point.coordinates, r.Inside z) ∧
      (plane ≠ 0 → plane ≠ 1 → points = [])) ∧
    ∃ dark lit, r.points data 0 = some dark ∧ r.points data 1 = some lit ∧
      dark.length + lit.length = r.pixelCount := by
  refine ⟨?_, (r.cellsOf data 0).map r.point, (r.cellsOf data 1).map r.point, points_eq_cellsOf h,
    points_eq_cellsOf h, ?_⟩
  · intro plane
    refine ⟨r.cellsOf data plane, (r.cellsOf data plane).map r.point, ?_, drains_iff.2 (points_eq_cellsOf h),
      points_eq_cellsOf h, ?_, fun c => mem_cellsOf, cellsOf_descending, ?_, ?_, ?_⟩
    · intro left hleft
      exact pull_ne_outside (Nat.le_trans hleft h)
    · rw [List.map_map]
      rfl
    · rw [List.map_map]
      refine List.Nodup.map (fun c c' hc => coordinates_point_injective hc) ?_
      exact cellsOf_descending.imp Nat.ne_of_gt
    · intro z hz
      rw [List.map_map] at hz
      obtain ⟨c, hc, rfl⟩ := List.mem_map.1 hz
      exact inside_point (mem_cellsOf.1 hc).1
    · intro hzero hone
      rw [List.map_eq_nil_iff, List.eq_nil_iff_forall_not_mem]
      intro c hc
      obtain ⟨hlt, hbit⟩ := mem_cellsOf.1 hc
      rcases packedBit_of_lt (Nat.lt_of_lt_of_le hlt h) with hbit' | hbit'
      · exact hzero (Option.some.inj (hbit.symm.trans hbit'))
      · exact hone (Option.some.inj (hbit.symm.trans hbit'))
  · rw [List.length_map, List.length_map]
    exact length_cellsOf_add h

/-- Nine cells in two bytes, the second one used for one bit: plane 1 has five of them, the last cell first, and a plane
that is no bit has none. -/
theorem five_of_nine :
    let r : Resolution := ⟨3, 3⟩
    let data : Array UInt8 := #[0b10110010, 0b10000000]
    r.pixelCount ≤ 8 * data.size ∧ Drains r data 1 9 [⟨2, 2⟩, ⟨0, 2⟩, ⟨0, 1⟩, ⟨2, 0⟩, ⟨0, 0⟩] ∧ Drains r data 2 9 [] := by
  intro r data
  have hreach : r.pixelCount ≤ 8 * data.size := by decide
  obtain ⟨hplane, -⟩ := plane_pulled r data hreach
  obtain ⟨-, points, -, hdrains, hpoints, -⟩ := hplane 1
  obtain ⟨-, points', -, hdrains', -, -, -, -, -, -, hnone⟩ := hplane 2
  have hfive : r.points data 1 = some [⟨2, 2⟩, ⟨0, 2⟩, ⟨0, 1⟩, ⟨2, 0⟩, ⟨0, 0⟩] := by decide
  obtain rfl := Option.some.inj (hpoints.symm.trans hfive)
  obtain rfl := hnone (by decide) (by decide)
  exact ⟨hreach, hdrains, hdrains'⟩

end Chip8.Resolution
