/-
What a terminal plots of a screen. The screen is packed into bytes, eight pixels each, and a plane of the packed bits is
listed as points, last cell first and with the vertical axis pointing up. Packing and listing number the cells alike, so
the points of plane 1 are the lit pixels, and those of plane 0 the others.

Results:
- `points_eq`: the points of a plane of a grid of any size, as one list;
- `bit?_toBytes`: the bit of a cell in the packed screen;
- `planes_show_screen`: the two planes show the screen, and screens that are packed alike are the same.
-/
import Mathlib.Data.List.Nodup
import Mathlib.Data.List.Perm.Basic
import Chip8.Proofs.Screen.Grid
import Chip8.Screen.Bitplane

namespace Chip8

/-! ## Planes of any grid -/

namespace Resolution

variable (r : Resolution) {data : Array UInt8} (plane : UInt8)

/-- the points of those of the first `n` cells that are asked for, last cell first -/
def pointsOf (n : Nat) (wanted : Nat → Bool) : List Point :=
  ((List.range n).reverse.filter wanted).map r.point

theorem pointsOf_succ (n : Nat) (wanted : Nat → Bool) :
    r.pointsOf (n + 1) wanted = if wanted n = true then r.point n :: r.pointsOf n wanted else r.pointsOf n wanted := by
  unfold pointsOf
  rw [List.range_succ, List.reverse_append, List.reverse_singleton, List.singleton_append, List.filter_cons]
  by_cases h : wanted n = true
  · rw [if_pos h, if_pos h, List.map_cons]
  · rw [if_neg h, if_neg h]

theorem pointsOf_congr {n : Nat} {wanted wanted' : Nat → Bool} (h : ∀ k < n, wanted k = wanted' k) :
    r.pointsOf n wanted = r.pointsOf n wanted' := by
  unfold pointsOf
  rw [List.filter_congr fun k hk => h k (List.mem_range.1 (List.mem_reverse.1 hk))]

theorem length_pointsOf (n : Nat) (wanted : Nat → Bool) :
    (r.pointsOf n wanted).length = (List.range n).countP wanted := by
  rw [pointsOf, List.length_map, ← List.countP_eq_length_filter, List.countP_reverse]

/-- the cells asked for and the others are all cells -/
theorem pointsOf_append_perm (n : Nat) (wanted : Nat → Bool) :
    (r.pointsOf n wanted ++ r.pointsOf n fun k => !wanted k).Perm (r.pointsOf n fun _ => true) := by
  unfold pointsOf
  rw [← List.map_append, List.filter_true]
  exact (List.filter_append_perm wanted _).map _

theorem bit?_of_lt {n : Nat} (h : n < 8 * data.size) : ∃ b, bit? data n = some b := by
  have hlt : n / 8 < data.size := by omega
  unfold bit?
  rw [Array.getElem?_eq_getElem hlt]
  exact ⟨_, rfl⟩

theorem pointsBelow_eq {n : Nat} (h : n ≤ 8 * data.size) :
    r.pointsBelow data plane n = some (r.pointsOf n fun k => bit? data k == some plane) := by
  induction n with
  | zero => rfl
  | succ n ih =>
    obtain ⟨b, hb⟩ := bit?_of_lt (Nat.lt_of_succ_le h)
    rw [pointsBelow, hb, ih (Nat.le_of_succ_le h), pointsOf_succ, hb]
    by_cases hplane : b = plane
    · simp [hplane]
    · simp [hplane]

/-- **Points of a plane.** Where the data reach to the last cell, the points are those of the cells whose bit is the
plane's, last cell first. -/
theorem points_eq (h : r.pixelCount ≤ 8 * data.size) :
    r.points data plane = some (r.pointsOf r.pixelCount fun k => bit? data k == some plane) :=
  r.pointsBelow_eq plane h

end Resolution

/-! ## Packed screens -/

theorem testBit_foldl_or (f : Nat → UInt8) (ks : List Nat) (b : UInt8) (i : Nat) :
    (ks.foldl (fun b k => b ||| f k) b).toNat.testBit i =
      (b.toNat.testBit i || ks.any fun k => (f k).toNat.testBit i) := by
  induction ks generalizing b with
  | nil => rw [List.foldl_nil, List.any_nil, Bool.or_false]
  | cons k ks ih => rw [List.foldl_cons, ih, List.any_cons, UInt8.toNat_or, Nat.testBit_or, Bool.or_assoc]

/-- the `k`-th bit from the left, and no other -/
theorem testBit_topBit {k j : Nat} (hk : k < 8) (hj : j < 8) :
    (0x80 >>> k.toUInt8 : UInt8).toNat.testBit (7 - j) = decide (k = j) := by
  have hall : ∀ k < 8, ∀ j < 8, (0x80 >>> k.toUInt8 : UInt8).toNat.testBit (7 - j) = decide (k = j) := by decide
  exact hall k hk j hj

/-- one bit of a byte, shifted to the end -/
theorem shiftRight_and_one (b : UInt8) {i : Nat} (hi : i < 8) :
    (b >>> i.toUInt8) &&& 1 = if b.toNat.testBit i = true then 1 else 0 := by
  have hi8 : i.toUInt8.toNat % 8 = i := by
    rw [UInt8.toNat_ofNat']
    omega
  have hbit : ((b >>> i.toUInt8) &&& 1).toNat = b.toNat / 2 ^ i % 2 := by
    rw [UInt8.toNat_and, UInt8.toNat_shiftRight, hi8, Nat.shiftRight_eq_div_pow]
    exact Nat.and_one_is_mod _
  apply UInt8.toNat_inj.1
  rw [hbit, Nat.testBit_eq_decide_div_mod_eq]
  rcases Nat.mod_two_eq_zero_or_one (b.toNat / 2 ^ i) with h | h
  · rw [h]
    rfl
  · rw [h]
    rfl

namespace Screen

theorem testBit_packByte (s : Screen) (n : Nat) {j : Nat} (hj : j < 8) :
    (s.packByte n).toNat.testBit (7 - j) = s.cell (n + j) := by
  let put (k : Nat) : UInt8 := if s.cell (n + k) = true then 0x80 >>> k.toUInt8 else 0
  have hput : ∀ k < 8, (put k).toNat.testBit (7 - j) = (s.cell (n + k) && decide (k = j)) := by
    intro k hk
    simp only [put]
    by_cases hcell : s.cell (n + k) = true
    · rw [if_pos hcell, testBit_topBit hk hj, hcell, Bool.true_and]
    · have hdark : s.cell (n + k) = false := Bool.eq_false_of_not_eq_true hcell
      rw [if_neg hcell, hdark, Bool.false_and, UInt8.toNat_zero, Nat.zero_testBit]
  have hany : ((List.range 8).any fun k => (put k).toNat.testBit (7 - j)) = s.cell (n + j) := by
    rw [Bool.eq_iff_iff, List.any_eq_true]
    constructor
    · rintro ⟨k, hk, hbit⟩
      rw [hput k (List.mem_range.1 hk), Bool.and_eq_true, decide_eq_true_iff] at hbit
      obtain ⟨hcell, rfl⟩ := hbit
      exact hcell
    · intro hcell
      refine ⟨j, List.mem_range.2 hj, ?_⟩
      rw [hput j hj, hcell, decide_eq_true rfl, Bool.and_self]
  calc (s.packByte n).toNat.testBit (7 - j)
      = ((List.range 8).foldl (fun b k => b ||| put k) 0).toNat.testBit (7 - j) := rfl
    _ = ((0 : UInt8).toNat.testBit (7 - j) || (List.range 8).any fun k => (put k).toNat.testBit (7 - j)) :=
        testBit_foldl_or ..
    _ = s.cell (n + j) := by rw [hany, UInt8.toNat_zero, Nat.zero_testBit, Bool.false_or]

theorem length_toBytes (s : Screen) : s.toBytes.length = 256 := by
  rw [toBytes, List.length_map, List.length_range]

/-- **Packing.** The bit of a cell is whether its pixel is lit. -/
theorem bit?_toBytes (s : Screen) {n : Nat} (h : n < 2048) :
    Resolution.bit? s.toBytes.toArray n = some (if s.cell n = true then 1 else 0) := by
  have hbyte : s.toBytes.toArray[n / 8]? = some (s.packByte (8 * (n / 8))) := by
    have hlt : n / 8 < 256 := by omega
    simp [toBytes, hlt]
  have hcell : 8 * (n / 8) + n % 8 = n := Nat.div_add_mod n 8
  have hmod : n % 8 < 8 := Nat.mod_lt _ (by decide)
  rw [Resolution.bit?, hbyte, Option.map_some, shiftRight_and_one _ (by omega), testBit_packByte s _ hmod, hcell]

end Screen

/-! ## The screen on the plot -/

/-- the coordinates of a point as integers, upwards and to the right -/
def Point.coordinates (q : Point) : Int × Int :=
  (q.x, q.y)

/-- the coordinates of a position: columns to the right, and rows downwards from height zero -/
def Position.coordinates (p : Position) : Int × Int :=
  (p.x.val, -(p.y.val : Int))

/-- the grid that the screen is plotted on -/
def Resolution.screen : Resolution :=
  ⟨64, 32⟩

/-- the points are those of the positions asked for, each of them once, and no others -/
structure Plots (points : List Point) (shown : Position → Bool) : Prop where
  once : (points.map Point.coordinates).Nodup
  mem_iff : ∀ z, z ∈ points.map Point.coordinates ↔ ∃ p : Position, shown p = true ∧ p.coordinates = z

namespace Plots

theorem perm {points points' : List Point} {shown : Position → Bool} (h : Plots points shown)
    (hp : points.Perm points') : Plots points' shown where
  once := (hp.map _).nodup_iff.1 h.once
  mem_iff z := ((hp.map _).mem_iff.symm).trans (h.mem_iff z)

end Plots

theorem Position.coordinates_point (p : Position) : (Resolution.screen.point p.index).coordinates = p.coordinates := by
  have hx := p.x.isLt
  have hcolumn : p.index % 64 = p.x.val := by
    unfold index
    omega
  have hrow : p.index / 64 = p.y.val := by
    unfold index
    omega
  show (((p.index % 64 : Nat) : Int), -((p.index / 64 : Nat) : Int)) = _
  rw [hcolumn, hrow]
  rfl

theorem Position.coordinates_injective {p q : Position} (h : p.coordinates = q.coordinates) : p = q := by
  obtain ⟨hx, hy⟩ := Prod.mk.inj h
  exact Position.ext (Fin.ext (by omega)) (Fin.ext (by omega))

/-- the cells asked for, as points, are the positions asked for -/
theorem plots_pointsOf (wanted : Nat → Bool) :
    Plots (Resolution.screen.pointsOf 2048 wanted) fun p => wanted p.index := by
  have hcoordinates : ∀ n < 2048, ∃ p : Position, p.index = n ∧
      (Resolution.screen.point n).coordinates = p.coordinates := by
    intro n hn
    obtain ⟨p, rfl⟩ := Position.exists_index hn
    exact ⟨p, rfl, p.coordinates_point⟩
  have hmem : ∀ {n}, n ∈ (List.range 2048).reverse.filter wanted ↔ n < 2048 ∧ wanted n = true := by
    intro n
    rw [List.mem_filter, List.mem_reverse, List.mem_range]
  unfold Resolution.pointsOf
  constructor
  · rw [List.map_map]
    refine List.Nodup.map_on ?_ ((List.nodup_reverse.2 List.nodup_range).filter _)
    intro n hn k hk heq
    obtain ⟨p, rfl, hp⟩ := hcoordinates n (hmem.1 hn).1
    obtain ⟨q, rfl, hq⟩ := hcoordinates k (hmem.1 hk).1
    rw [Position.coordinates_injective (hp.symm.trans (heq.trans hq))]
  · intro z
    rw [List.map_map, List.mem_map]
    constructor
    · rintro ⟨n, hn, rfl⟩
      obtain ⟨p, rfl, hp⟩ := hcoordinates n (hmem.1 hn).1
      exact ⟨p, (hmem.1 hn).2, hp.symm⟩
    · rintro ⟨p, hp, rfl⟩
      exact ⟨p.index, hmem.2 ⟨p.index_lt, hp⟩, p.coordinates_point⟩

namespace Screen

/-- the points of a plane of a packed screen are the cells that are lit, or the others, as the plane asks for -/
theorem points_toBytes (s : Screen) {plane : UInt8} (wanted : Bool → Bool)
    (h : ∀ b, (some (if b = true then 1 else 0) == some plane) = wanted b) :
    Resolution.screen.points s.toBytes.toArray plane =
      some (Resolution.screen.pointsOf 2048 fun n => wanted (s.cell n)) := by
  have hsize : Resolution.screen.pixelCount ≤ 8 * s.toBytes.toArray.size := by
    rw [List.size_toArray, length_toBytes]
    decide
  rw [Resolution.points_eq _ _ hsize]
  refine congrArg some (Resolution.screen.pointsOf_congr fun n hn => ?_)
  rw [s.bit?_toBytes hn]
  exact h (s.cell n)

theorem toBytes_injective : Function.Injective toBytes := by
  intro s t h
  apply ext_pixel
  intro p
  have hs := s.bit?_toBytes p.index_lt
  have ht := t.bit?_toBytes p.index_lt
  rw [h, ht, cell_index, cell_index] at hs
  cases hsp : s.pixel p with
  | false =>
    cases htp : t.pixel p with
    | false => rfl
    | true => simp [hsp, htp] at hs
  | true =>
    cases htp : t.pixel p with
    | false => simp [hsp, htp] at hs
    | true => rfl

/-- **The plot shows the screen.** Take any screen, packed into bytes. The points of plane 1, in integer coordinates,
are those of the lit pixels, each once, and no others: column x of row y is at (x, -y). The points of plane 0 are those
of the other pixels, so that the two planes together have each of the 2048 positions once, and plane 1 has as many
points as pixels are lit. Screens that are packed into the same bytes are the same. -/
theorem planes_show_screen :
    (∀ s : Screen, ∃ lit dark,
      Resolution.screen.points s.toBytes.toArray 1 = some lit ∧
      Resolution.screen.points s.toBytes.toArray 0 = some dark ∧
      Plots lit s.pixel ∧ Plots dark (fun p => !s.pixel p) ∧ Plots (lit ++ dark) (fun _ => true) ∧
      (lit ++ dark).length = 2048 ∧ lit.length = s.litCount) ∧
    Function.Injective toBytes := by
  refine ⟨?_, toBytes_injective⟩
  intro s
  have hlit : Resolution.screen.points s.toBytes.toArray 1 = some (Resolution.screen.pointsOf 2048 s.cell) := by
    refine s.points_toBytes id fun b => ?_
    cases b with
    | false => rfl
    | true => rfl
  have hdark : Resolution.screen.points s.toBytes.toArray 0 =
      some (Resolution.screen.pointsOf 2048 fun n => !s.cell n) := by
    refine s.points_toBytes not fun b => ?_
    cases b with
    | false => rfl
    | true => rfl
  have hall : (Resolution.screen.pointsOf 2048 s.cell ++ Resolution.screen.pointsOf 2048 fun n => !s.cell n).Perm
      (Resolution.screen.pointsOf 2048 fun _ => true) := Resolution.screen.pointsOf_append_perm 2048 s.cell
  have hcells : (fun p : Position => s.cell p.index) = s.pixel := funext s.cell_index
  refine ⟨_, _, hlit, hdark, ?_, ?_, ?_, ?_, ?_⟩
  · rw [← hcells]
    exact plots_pointsOf s.cell
  · rw [← hcells]
    exact plots_pointsOf fun n => !s.cell n
  · exact (plots_pointsOf fun _ => true).perm hall.symm
  · rw [hall.length_eq, Resolution.length_pointsOf, List.countP_true, List.length_range]
  · rw [Resolution.length_pointsOf, litCount_eq_countP]

end Screen

end Chip8
