/-
The algebra of sprites. Drawing is an exclusive or with the positions that a sprite covers, so drawings can change
places and cancel out. How many pixels are lit afterwards, and whether a drawing reports a collision, is said in numbers
of set bits of the sprite: those that come to lie on the screen, and those that come to lie on a lit pixel.

Results:
- `drawAll_perm`: drawings in any order leave the same screen;
- `draw_draw`: a sprite drawn twice is not there;
- `card_bitsWhere`: bits of a sprite counted as positions;
- `litCount_draw`, `collision_draw`: what a drawing does to the number of lit pixels, and when it reports a collision;
- `sprite_algebra`: all of these together;
- `redrawn_on_lit_pixel`: a sprite with a bit on the screen that is drawn twice, and no collision the second time.
-/
import Mathlib.Data.Finset.Prod
import Mathlib.Data.List.Perm.Basic
import Chip8.Proofs.Screen.Sprite

namespace Chip8

/-- a sprite, and where its corner goes -/
structure Sprite where
  x : UInt8
  y : UInt8
  rows : List UInt8
  deriving DecidableEq, Repr

/-- is a place on the screen? -/
def onScreen (x y : Nat) : Bool :=
  decide (x < 64 ∧ y < 32)

theorem onScreen_position (p : Position) : onScreen p.x.val p.y.val = true :=
  decide_eq_true ⟨p.x.isLt, p.y.isLt⟩

namespace Sprite

/-- the bit of the sprite in this column and row of its own -/
def bit (c : Sprite) (dx dy : Nat) : Bool :=
  (c.rows.getD dy 0).toNat.testBit (7 - dx)

/-- the set bits of the sprite, by column and row, that come to lie in a place such as asked for -/
def bitsWhere (c : Sprite) (there : Nat → Nat → Bool) : Finset (Nat × Nat) :=
  (Finset.range 8 ×ˢ Finset.range c.rows.length).filter fun k =>
    c.bit k.1 k.2 = true ∧ there (c.x.toNat + k.1) (c.y.toNat + k.2) = true

theorem mem_bitsWhere {c : Sprite} {there : Nat → Nat → Bool} {dx dy : Nat} : (dx, dy) ∈ c.bitsWhere there ↔
    (dx < 8 ∧ dy < c.rows.length) ∧ c.bit dx dy = true ∧ there (c.x.toNat + dx) (c.y.toNat + dy) = true := by
  rw [bitsWhere, Finset.mem_filter, Finset.mem_product, Finset.mem_range, Finset.mem_range]

/-- the positions that the sprite covers -/
def cover (c : Sprite) : Finset Position :=
  Finset.univ.filter fun p => Screen.covers c.x.toNat c.y.toNat c.rows p = true

theorem mem_cover {c : Sprite} {p : Position} :
    p ∈ c.cover ↔ Screen.covers c.x.toNat c.y.toNat c.rows p = true := by
  simp [cover]

/-- a covered position is a set bit that came to lie there -/
theorem mem_cover_iff_bit {c : Sprite} {p : Position} : p ∈ c.cover ↔ ∃ dx dy, (dx < 8 ∧ dy < c.rows.length) ∧
    c.bit dx dy = true ∧ c.x.toNat + dx = p.x.val ∧ c.y.toNat + dy = p.y.val := by
  rw [mem_cover, Screen.covers_eq_true_iff]
  constructor
  · rintro ⟨⟨hx, hx', hy, hy'⟩, hbit⟩
    exact ⟨p.x.val - c.x.toNat, p.y.val - c.y.toNat, by omega, hbit, by omega, by omega⟩
  · rintro ⟨dx, dy, ⟨hdx, hdy⟩, hbit, hx, hy⟩
    have ex : p.x.val - c.x.toNat = dx := by omega
    have ey : p.y.val - c.y.toNat = dy := by omega
    rw [ex, ey]
    exact ⟨by omega, hbit⟩

/-- **Bits as positions.** For a condition that holds on the screen only, the set bits that come to lie in such a place
are as many as the covered positions where it holds. -/
theorem card_bitsWhere (c : Sprite) {there : Nat → Nat → Bool} (h : ∀ x y, there x y = true → x < 64 ∧ y < 32) :
    (c.bitsWhere there).card = (c.cover.filter fun p => there p.x.val p.y.val = true).card := by
  symm
  refine Finset.card_bij (fun p _ => (p.x.val - c.x.toNat, p.y.val - c.y.toNat)) ?_ ?_ ?_
  · intro p hp
    obtain ⟨hcover, hthere⟩ := Finset.mem_filter.1 hp
    obtain ⟨dx, dy, hin, hbit, hx, hy⟩ := mem_cover_iff_bit.1 hcover
    have ex : p.x.val - c.x.toNat = dx := by omega
    have ey : p.y.val - c.y.toNat = dy := by omega
    rw [ex, ey, mem_bitsWhere, hx, hy]
    exact ⟨hin, hbit, hthere⟩
  · intro p hp q hq heq
    obtain ⟨dx, dy, -, -, hx, hy⟩ := mem_cover_iff_bit.1 (Finset.mem_filter.1 hp).1
    obtain ⟨dx', dy', -, -, hx', hy'⟩ := mem_cover_iff_bit.1 (Finset.mem_filter.1 hq).1
    obtain ⟨ex, ey⟩ := Prod.mk.inj heq
    exact Position.ext (Fin.ext (by omega)) (Fin.ext (by omega))
  · rintro ⟨dx, dy⟩ hk
    obtain ⟨hin, hbit, hthere⟩ := mem_bitsWhere.1 hk
    obtain ⟨hx, hy⟩ := h _ _ hthere
    let p : Position := ⟨⟨c.x.toNat + dx, hx⟩, ⟨c.y.toNat + dy, hy⟩⟩
    have hcover : p ∈ c.cover := mem_cover_iff_bit.2 ⟨dx, dy, hin, hbit, rfl, rfl⟩
    refine ⟨p, Finset.mem_filter.2 ⟨hcover, hthere⟩, ?_⟩
    exact Prod.ext (Nat.add_sub_cancel_left ..) (Nat.add_sub_cancel_left ..)

/-- the covered positions in a set, as set bits of the sprite -/
theorem card_eq_bitsWhere (c : Sprite) {there : Nat → Nat → Bool} (h : ∀ x y, there x y = true → x < 64 ∧ y < 32)
    {ps : Finset Position} (hps : ∀ p, p ∈ ps ↔ p ∈ c.cover ∧ there p.x.val p.y.val = true) :
    ps.card = (c.bitsWhere there).card := by
  have hfilter : ps = c.cover.filter fun p => there p.x.val p.y.val = true := by
    ext p
    rw [hps, Finset.mem_filter]
  rw [c.card_bitsWhere h, hfilter]

end Sprite

namespace Screen

/-- draw a sprite; the flag tells of a collision -/
def draw (s : Screen) (c : Sprite) : Screen × Bool :=
  s.drawSprite c.x c.y c.rows

/-- draw sprites one after the other -/
def drawAll (s : Screen) (cs : List Sprite) : Screen :=
  cs.foldl (fun s c => (s.draw c).1) s

theorem pixel_draw (s : Screen) (c : Sprite) (p : Position) :
    (s.draw c).1.pixel p = (s.pixel p ^^ decide (p ∈ c.cover)) := by
  have hcover : decide (p ∈ c.cover) = covers c.x.toNat c.y.toNat c.rows p := by
    rw [Bool.eq_iff_iff, decide_eq_true_iff]
    exact Sprite.mem_cover
  rw [hcover]
  exact s.pixel_drawSprite c.x c.y c.rows p

/-! ## Order and repetition -/

/-- two drawings can change places -/
theorem draw_comm (s : Screen) (c d : Sprite) : ((s.draw c).1.draw d).1 = ((s.draw d).1.draw c).1 := by
  apply ext_pixel
  intro p
  simp only [pixel_draw]
  exact Bool.xor_right_comm ..

/-- **Order.** Drawings in any order leave the same screen. -/
theorem drawAll_perm {cs ds : List Sprite} (h : cs.Perm ds) (s : Screen) : s.drawAll cs = s.drawAll ds :=
  h.foldl_eq' (fun c _ d _ s => s.draw_comm c d) s

/-- **Repetition.** A sprite that is drawn twice is not there. -/
theorem draw_draw (s : Screen) (c : Sprite) : ((s.draw c).1.draw c).1 = s := by
  apply ext_pixel
  intro p
  rw [pixel_draw, pixel_draw, Bool.xor_assoc, Bool.xor_self, Bool.xor_false]

/-! ## Counting -/

/-- is there a pixel in this place, and not lit? -/
def unlit (s : Screen) (x y : Nat) : Bool :=
  onScreen x y && !s.lit x y

theorem lit_imp_on_screen {s : Screen} {x y : Nat} (h : s.lit x y = true) : x < 64 ∧ y < 32 := by
  obtain ⟨p, rfl, rfl, -⟩ := lit_eq_true_iff.1 h
  exact ⟨p.x.isLt, p.y.isLt⟩

/-- all covered positions -/
theorem card_cover (c : Sprite) : c.cover.card = (c.bitsWhere onScreen).card := by
  have honly : ∀ x y, onScreen x y = true → x < 64 ∧ y < 32 := fun x y h => of_decide_eq_true h
  refine c.card_eq_bitsWhere honly fun p => ?_
  rw [and_iff_left (onScreen_position p)]

/-- the covered positions that are lit -/
theorem card_cover_inter (s : Screen) (c : Sprite) : (s.litSet ∩ c.cover).card = (c.bitsWhere s.lit).card := by
  refine c.card_eq_bitsWhere (fun x y h => lit_imp_on_screen h) fun p => ?_
  rw [Finset.mem_inter, mem_litSet, lit_position, and_comm]

/-- the covered positions that are not lit -/
theorem card_cover_sdiff (s : Screen) (c : Sprite) : (c.cover \ s.litSet).card = (c.bitsWhere s.unlit).card := by
  have honly : ∀ x y, s.unlit x y = true → x < 64 ∧ y < 32 := by
    intro x y h
    exact of_decide_eq_true (Bool.and_eq_true_iff.1 h).1
  refine c.card_eq_bitsWhere honly fun p => ?_
  have hunlit : s.unlit p.x.val p.y.val = !s.pixel p := by
    rw [unlit, onScreen_position, Bool.true_and, lit_position]
  rw [Finset.mem_sdiff, mem_litSet, hunlit, Bool.not_eq_true', Bool.not_eq_true]

/-- drawing leaves what was lit or covered, and not both -/
theorem litSet_draw (s : Screen) (c : Sprite) : (s.draw c).1.litSet = (s.litSet \ c.cover) ∪ (c.cover \ s.litSet) := by
  ext p
  rw [mem_litSet, pixel_draw, Finset.mem_union, Finset.mem_sdiff, Finset.mem_sdiff, mem_litSet]
  by_cases hp : p ∈ c.cover
  · simp [hp]
  · simp [hp]

/-- **Lit pixels.** A drawing lights a pixel for each set bit on the screen, but takes two back for each one that hits a
lit pixel: the one that it does not light and the one that goes out. -/
theorem litCount_draw (s : Screen) (c : Sprite) :
    ((s.draw c).1.litCount : Int) =
      s.litCount + (c.bitsWhere onScreen).card - 2 * (c.bitsWhere s.lit).card := by
  have hdisjoint : Disjoint (s.litSet \ c.cover) (c.cover \ s.litSet) := disjoint_sdiff_sdiff
  have hafter : (s.draw c).1.litSet.card = (s.litSet \ c.cover).card + (c.cover \ s.litSet).card := by
    rw [litSet_draw, Finset.card_union_of_disjoint hdisjoint]
  have hlit : (s.litSet \ c.cover).card + (s.litSet ∩ c.cover).card = s.litSet.card :=
    Finset.card_sdiff_add_card_inter ..
  have hcover : (c.cover \ s.litSet).card + (s.litSet ∩ c.cover).card = c.cover.card := by
    rw [Finset.inter_comm]
    exact Finset.card_sdiff_add_card_inter ..
  rw [litCount_eq_card, litCount_eq_card, ← card_cover, ← card_cover_inter]
  omega

/-- **Collisions.** A drawing reports one just when a set bit hits a lit pixel. -/
theorem collision_draw (s : Screen) (c : Sprite) : (s.draw c).2 = true ↔ (c.bitsWhere s.lit).card ≠ 0 := by
  rw [← card_cover_inter, Finset.card_ne_zero]
  refine (s.collision_drawSprite c.x c.y c.rows).trans (exists_congr fun p => ?_)
  rw [Finset.mem_inter, mem_litSet, Sprite.mem_cover]

/-- nothing is lit, and nothing is hit -/
theorem collision_draw_blank (c : Sprite) : (blank.draw c).2 = false := by
  rw [← Bool.not_eq_true]
  intro h
  obtain ⟨p, hp, -⟩ := (blank.collision_drawSprite c.x c.y c.rows).1 h
  rw [pixel_blank] at hp
  cases hp

/-- drawn a second time, a sprite collides with what it lit the first time -/
theorem collision_draw_draw (s : Screen) (c : Sprite) :
    ((s.draw c).1.draw c).2 = true ↔ (c.bitsWhere s.unlit).card ≠ 0 := by
  rw [← card_cover_sdiff, Finset.card_ne_zero]
  refine ((s.draw c).1.collision_drawSprite c.x c.y c.rows).trans (exists_congr fun p => ?_)
  rw [Finset.mem_sdiff, mem_litSet, ← Sprite.mem_cover, and_comm]
  refine and_congr_right fun hp => ?_
  rw [pixel_draw, decide_eq_true hp, Bool.xor_true, Bool.not_eq_true', Bool.not_eq_true]

/-- **The algebra of sprites.** Take any screen.
- Sprites that are drawn one after the other leave the same screen in any order.
- A sprite that is drawn twice leaves the screen as it was. The second drawing reports a collision just when one of the
  sprite's set bits comes to lie on a pixel that was not lit before the first.
- A drawing adds the number of set bits that come to lie on the screen to the number of lit pixels, less twice the
  number of those that hit a lit pixel, and reports a collision just when there are such. -/
theorem sprite_algebra (s : Screen) :
    (∀ cs ds : List Sprite, cs.Perm ds → s.drawAll cs = s.drawAll ds) ∧
    (∀ c : Sprite, ((s.draw c).1.draw c).1 = s ∧
      (((s.draw c).1.draw c).2 = true ↔ (c.bitsWhere s.unlit).card ≠ 0)) ∧
    (∀ c : Sprite,
      ((s.draw c).1.litCount : Int) = s.litCount + (c.bitsWhere onScreen).card - 2 * (c.bitsWhere s.lit).card ∧
      ((s.draw c).2 = true ↔ (c.bitsWhere s.lit).card ≠ 0)) := by
  refine ⟨?_, ?_, ?_⟩
  · intro cs ds h
    exact drawAll_perm h s
  · intro c
    exact ⟨s.draw_draw c, s.collision_draw_draw c⟩
  · intro c
    exact ⟨s.litCount_draw c, s.collision_draw c⟩

/-- Two sprites that overlap on a screen that is all lit, one of them partly past the right and the bottom edge: in
either order they leave the same screen, and the one at the edge puts four pixels out. -/
theorem overlapping_sprites :
    let s : Screen := ⟨Vector.replicate 2048 true⟩
    let c : Sprite := ⟨60, 31, [0xFF, 0xFF]⟩
    let d : Sprite := ⟨62, 30, [0x80, 0xC0]⟩
    [c, d].Perm [d, c] ∧ s.drawAll [c, d] = s.drawAll [d, c] ∧ (s.draw c).1.litCount = 2044 ∧ (s.draw c).2 = true := by
  intro s c d
  obtain ⟨hperm, -, hcount⟩ := sprite_algebra s
  have hswap : [c, d].Perm [d, c] := List.Perm.swap d c []
  have hlit : s.lit = onScreen := by
    funext x y
    rw [Bool.eq_iff_iff]
    constructor
    · intro h
      exact decide_eq_true (lit_imp_on_screen h)
    · intro h
      obtain ⟨hx, hy⟩ := of_decide_eq_true h
      exact (s.lit_position ⟨⟨x, hx⟩, ⟨y, hy⟩⟩).trans (Vector.getElem_replicate _)
  have hall : s.litCount = 2048 := Vector.count_replicate_self
  have hfour : (c.bitsWhere onScreen).card = 4 := by decide
  obtain ⟨hafter, hcollision⟩ := hcount c
  rw [hlit, hfour, hall] at hafter
  rw [hlit, hfour] at hcollision
  exact ⟨hswap, hperm _ _ hswap, by omega, hcollision.2 (by decide)⟩

/-- A sprite of one bit, on a screen where its pixel is lit already: the bit comes to lie on the screen, but drawn a
second time the sprite collides with nothing, since the first drawing put the pixel out. -/
theorem redrawn_on_lit_pixel :
    let c : Sprite := ⟨0, 0, [0x80]⟩
    let s : Screen := (blank.draw c).1
    ¬ (((s.draw c).1.draw c).2 = true ↔ (c.bitsWhere onScreen).card ≠ 0) := by
  intro c s h
  have hone : (c.bitsWhere onScreen).card = 1 := by decide
  have hsecond : ((s.draw c).1.draw c).2 = true := h.2 (by rw [hone]; decide)
  rw [draw_draw, collision_draw_blank] at hsecond
  cases hsecond

end Screen

end Chip8
