import ChipEight.Frame.Sprite

/-!
# Coverage of sprites

Which cells the set pixels of a sprite fall on. A cell is told by how far it lies below and to the
right of the top left pixel, around the edges of the picture. No two pixels of a sprite that is no
higher than the picture fall on one cell, so drawing the sprite flips exactly the cells it covers,
each of them once, and collides if one of those was lit.
-/

namespace ChipEight

namespace Frame

/-- How far a row lies below a vertical position, around the bottom edge. -/
def rowsDown (y : Nat) (r : Fin height) : Nat := (((r.val : Int) - y) % height).toNat

/-- How far a column lies to the right of a horizontal position, around the right edge. -/
def colsRight (x : Nat) (c : Fin width) : Nat := (((c.val : Int) - x) % width).toNat

/-- A choice of cells. -/
abbrev Mask := Fin height → Fin width → Bool

/-- The cells on which a sprite with its top left pixel at a row and column has a set pixel. -/
def covers (sprite : List UInt8) (row col : Nat) : Mask := fun r c ↦
  decide (colsRight col c < 8) &&
    (sprite[rowsDown row r]?).any fun bits ↦ bits.toNat.testBit (7 - colsRight col c)

/-- The cells on which one of the first `count` pixels of a sprite row falls and is set. -/
def rowCovers (bits : UInt8) (row col count : Nat) : Mask := fun r c ↦
  decide (wrapRow row = r) &&
    (decide (colsRight col c < count) && bits.toNat.testBit (7 - colsRight col c))

/-! ### Distances around the edges -/

/-- The row some rows below a position is the one at that distance. -/
theorem wrapRow_add_eq_iff (y : Nat) {k : Nat} (hk : k < height) (r : Fin height) :
    wrapRow (y + k) = r ↔ rowsDown y r = k := by
  have := r.isLt
  simp only [wrapRow, rowsDown, Fin.ext_iff, height] at *
  omega

/-- The column some columns to the right of a position is the one at that distance. -/
theorem wrapCol_add_eq_iff (x : Nat) {k : Nat} (hk : k < width) (c : Fin width) :
    wrapCol (x + k) = c ↔ colsRight x c = k := by
  have := c.isLt
  simp only [wrapCol, colsRight, Fin.ext_iff, width] at *
  omega

private theorem wrapRow_eq_iff (y : Nat) (r : Fin height) : wrapRow y = r ↔ rowsDown y r = 0 :=
  wrapRow_add_eq_iff (k := 0) y (by decide) r

private theorem rowsDown_cases (y : Nat) (r : Fin height) :
    rowsDown y r = 0 ∧ rowsDown (y + 1) r = 31 ∨ rowsDown y r = rowsDown (y + 1) r + 1 := by
  have := r.isLt
  simp only [rowsDown, height] at *
  omega

/-- A picture is known by its cells. -/
theorem ext_get {f g : Frame} (h : ∀ r c, f.get r c = g.get r c) : f = g := by
  obtain ⟨cells⟩ := f
  obtain ⟨others⟩ := g
  rw [mk.injEq]
  apply Vector.ext
  intro k hk
  have hrow : k / width < height := by
    simp only [height, width] at *
    omega
  have hc := h ⟨k / width, hrow⟩ ⟨k % width, Nat.mod_lt _ (by decide)⟩
  simp only [get, index, Fin.getElem_fin, Nat.div_add_mod'] at hc
  exact hc

/-! ### Covered cells -/

private theorem covers_nil (row col : Nat) (r : Fin height) (c : Fin width) :
    covers [] row col r c = false := by
  simp [covers]

private theorem rowCovers_zero (bits : UInt8) (row col : Nat) (r : Fin height) (c : Fin width) :
    rowCovers bits row col 0 r c = false := by
  simp [rowCovers]

private theorem rowCovers_succ (bits : UInt8) (row col : Nat) {k : Nat} (hk : k < width)
    (r : Fin height) (c : Fin width) :
    rowCovers bits row col (k + 1) r c =
      (rowCovers bits row col k r c ||
        (decide (wrapRow row = r ∧ wrapCol (col + k) = c) && bits.toNat.testBit (7 - k))) := by
  have hc := wrapCol_add_eq_iff col hk c
  by_cases he : colsRight col c = k
  · simp [rowCovers, hc, he]
  · have hlt : colsRight col c < k + 1 ↔ colsRight col c < k := by omega
    simp [rowCovers, hc, he, hlt]

private theorem covers_singleton (bits : UInt8) (row col : Nat) (r : Fin height) (c : Fin width) :
    covers [bits] row col r c = rowCovers bits row col 8 r c := by
  by_cases h : rowsDown row r = 0
  · simp [covers, rowCovers, wrapRow_eq_iff, h]
  · rw [covers, List.getElem?_eq_none (Nat.pos_of_ne_zero h)]
    simp [rowCovers, wrapRow_eq_iff, h]

private theorem covers_cons (bits : UInt8) {rest : List UInt8} (hl : rest.length < height)
    (row col : Nat) (r : Fin height) (c : Fin width) :
    covers (bits :: rest) row col r c =
      (covers [bits] row col r c || covers rest (row + 1) col r c) := by
  rcases rowsDown_cases row r with ⟨h0, h31⟩ | hs
  · have hout : rest[rowsDown (row + 1) r]? = none := by
      apply List.getElem?_eq_none
      simp only [height] at hl
      omega
    simp [covers, h0, hout]
  · simp [covers, hs]

end Frame

namespace Drawing

open ChipEight.Frame (covers rowCovers rowsDown wrapRow wrapCol)

private theorem pixel_eq_testBit (bits : UInt8) {k : Nat} (hk : k < 8) :
    pixel bits k = (bits.toNat.testBit (7 - k)).toUInt8 := by
  have hshift : (UInt8.ofNat (7 - k)).toNat % 8 = 7 - k := by
    rw [UInt8.toNat_ofNat']
    omega
  apply UInt8.toNat_inj.mp
  rw [pixel, UInt8.toNat_and, UInt8.toNat_shiftRight, hshift]
  change bits.toNat >>> (7 - k) &&& 1 = _
  rw [Nat.and_one_is_mod, Nat.shiftRight_eq_div_pow, ← Nat.toNat_testBit]
  cases bits.toNat.testBit (7 - k) <;> rfl

private theorem collision_plot {past cell : UInt8} (hp : past = 0 ∨ past = 1)
    (hc : cell = 0 ∨ cell = 1) (bit : Bool) :
    (past ||| bit.toUInt8 &&& cell = 0 ∨ past ||| bit.toUInt8 &&& cell = 1) ∧
      (past ||| bit.toUInt8 &&& cell = 1 ↔ past = 1 ∨ bit = true ∧ cell = 1) := by
  rcases hp with rfl | rfl <;> rcases hc with rfl | rfl <;> cases bit <;> decide

/-- A drawing that shows a picture with the cells of a mask flipped, and that has collided if one of
them was lit. -/
structure Flips (f : Frame) (mask : Frame.Mask) (d : Drawing) : Prop where
  get : ∀ r c, d.frame.get r c = f.get r c ^^^ (mask r c).toUInt8
  collision_cases : d.collision = 0 ∨ d.collision = 1
  collision_iff : d.collision = 1 ↔ ∃ r c, mask r c = true ∧ f.get r c = 1

variable {f : Frame} {mask : Frame.Mask} {d : Drawing}

/-- What matters of a mask is which cells are in it. -/
theorem Flips.of_eq {other : Frame.Mask} (h : Flips f mask d)
    (he : ∀ r c, other r c = mask r c) : Flips f other d := by
  have hm : other = mask := funext fun r ↦ funext (he r)
  rw [hm]
  exact h

private theorem flips_start (f : Frame) : Flips f (fun _ _ ↦ false) ⟨f, 0⟩ where
  get := fun _ _ ↦ UInt8.xor_zero.symm
  collision_cases := .inl rfl
  collision_iff := ⟨nofun, nofun⟩

/-- Plotting a pixel on a cell that has not been flipped yet flips it if the pixel is set. -/
theorem Flips.plot (h : Flips f mask d) (hf : f.Binary) {row : Fin Frame.height}
    {col : Fin Frame.width} (hm : mask row col = false) (bit : Bool) :
    Flips f (fun r c ↦ mask r c || (decide (row = r ∧ col = c) && bit))
      (d.plot row col bit.toUInt8) := by
  have hcell : d.frame.get row col = f.get row col := by
    rw [h.get, hm]
    exact UInt8.xor_zero
  obtain ⟨hcases, hiff⟩ := collision_plot h.collision_cases (hf row col) bit
  constructor
  · intro r c
    simp only [Drawing.plot, Frame.get_set]
    by_cases hrc : row = r ∧ col = c
    · obtain ⟨rfl, rfl⟩ := hrc
      simp [hm, hcell]
    · simp [hrc, h.get]
  · simp only [Drawing.plot, hcell]
    exact hcases
  · simp only [Drawing.plot, hcell, hiff, h.collision_iff, Bool.or_eq_true, Bool.and_eq_true,
      decide_eq_true_eq]
    constructor
    · rintro (⟨r, c, hr, hl⟩ | ⟨hb, hl⟩)
      · exact ⟨r, c, .inl hr, hl⟩
      · exact ⟨row, col, .inr ⟨⟨rfl, rfl⟩, hb⟩, hl⟩
    · rintro ⟨r, c, hr | ⟨⟨rfl, rfl⟩, hb⟩, hl⟩
      · exact .inl ⟨r, c, hr, hl⟩
      · exact .inr ⟨hb, hl⟩

/-- Plotting pixels of one row, from the left, on cells that have not been flipped yet flips those
whose pixels are set. -/
theorem Flips.plots (h : Flips f mask d) (hf : f.Binary) {row : Nat}
    (hm : ∀ c, mask (wrapRow row) c = false) (col : Nat) (bits : UInt8) {count : Nat}
    (hcount : count ≤ 8) :
    Flips f (fun r c ↦ mask r c || rowCovers bits row col count r c)
      ((List.range count).foldl
        (fun d k ↦ d.plot (wrapRow row) (wrapCol (col + k)) (pixel bits k)) d) := by
  induction count with
  | zero => exact h.of_eq fun r c ↦ by rw [Frame.rowCovers_zero, Bool.or_false]
  | succ k ih =>
    have hk : k < Frame.width := Nat.lt_of_lt_of_le hcount (by decide)
    -- The distance of this pixel's cell is `k`, so none of the pixels before it fell there.
    have hfree : (mask (wrapRow row) (wrapCol (col + k)) ||
        rowCovers bits row col k (wrapRow row) (wrapCol (col + k))) = false := by
      have hcol := (Frame.wrapCol_add_eq_iff col hk _).mp rfl
      simp [hm, rowCovers, hcol]
    have hnext := (ih (Nat.le_of_succ_le hcount)).plot hf hfree (bits.toNat.testBit (7 - k))
    rw [List.range_succ, List.foldl_append, List.foldl_cons, List.foldl_nil,
      pixel_eq_testBit bits hcount]
    exact hnext.of_eq fun r c ↦ by rw [Frame.rowCovers_succ bits row col hk, Bool.or_assoc]

/-- Drawing a sprite row where nothing has been flipped yet flips the cells that it covers. -/
theorem Flips.plotRow (h : Flips f mask d) (hf : f.Binary) {row : Nat}
    (hm : ∀ c, mask (wrapRow row) c = false) (col : Nat) (bits : UInt8) :
    Flips f (fun r c ↦ mask r c || covers [bits] row col r c) (d.plotRow row col bits) :=
  (h.plots hf hm col bits (Nat.le_refl 8)).of_eq fun r c ↦ by rw [Frame.covers_singleton]

/-- Drawing a sprite that is no higher than the picture, where nothing has been flipped yet, flips
the cells that it covers. -/
theorem Flips.plotRows {sprite : List UInt8} (h : Flips f mask d) (hf : f.Binary) {row : Nat}
    (hl : sprite.length ≤ Frame.height)
    (hm : ∀ r c, rowsDown row r < sprite.length → mask r c = false) (col : Nat) :
    Flips f (fun r c ↦ mask r c || covers sprite row col r c) (d.plotRows row col sprite) := by
  induction sprite generalizing d mask row with
  | nil => exact h.of_eq fun r c ↦ by rw [Frame.covers_nil, Bool.or_false]
  | cons bits rest ih =>
    have hlt : rest.length < Frame.height := hl
    have hnear : rowsDown row (wrapRow row) = 0 := (Frame.wrapRow_eq_iff row _).mp rfl
    have hfirst := h.plotRow hf
      (fun c ↦ hm _ c (by rw [hnear]; exact rest.length.succ_pos)) col bits
    -- The other rows of the sprite are too few to come round to the row just drawn.
    have hfree (r : Fin Frame.height) (c : Fin Frame.width)
        (hr : rowsDown (row + 1) r < rest.length) :
        (mask r c || covers [bits] row col r c) = false := by
      rcases Frame.rowsDown_cases row r with ⟨-, h31⟩ | hs
      · simp only [Frame.height] at hlt
        omega
      · rw [hm r c (by rw [hs]; exact Nat.succ_lt_succ hr), Frame.covers, hs]
        simp
    exact (ih hfirst (Nat.le_of_lt hlt) hfree).of_eq fun r c ↦ by
      rw [Frame.covers_cons bits hlt, Bool.or_assoc]

end Drawing

/-- Drawing a sprite that is no higher than the picture flips the cells that it covers. -/
theorem Frame.flips_draw {f : Frame} (hf : f.Binary) {sprite : List UInt8}
    (hl : sprite.length ≤ height) (row col : Nat) :
    (f.draw row col sprite).Flips f (covers sprite row col) :=
  ((Drawing.flips_start f).plotRows hf hl (fun _ _ _ ↦ rfl) col).of_eq fun _ _ ↦
    (Bool.false_or _).symm

end ChipEight
