import ChipEight.Frame

/-!
# Sprites

A sprite is a list of rows of eight pixels, one byte a row, its most significant bit leftmost.
Drawing flips the cells under its set bits; rows and columns past the edge of the picture come back
at the opposite edge. A drawing collides when it turns a lit cell dark.
-/

namespace ChipEight

/-- A picture being drawn on, and whether a lit cell has gone dark so far (0 or 1). -/
structure Drawing where
  frame : Frame
  collision : UInt8

namespace Drawing

/-- The pixel of a sprite row `k` places from its left end, 0 or 1. -/
def pixel (row : UInt8) (k : Nat) : UInt8 := (row >>> UInt8.ofNat (7 - k)) &&& 1

/-- Draw one pixel: flip the cell if the pixel is set. -/
def plot (d : Drawing) (row : Fin Frame.height) (col : Fin Frame.width) (bit : UInt8) : Drawing :=
  let cell := d.frame.get row col
  ⟨d.frame.set row col (cell ^^^ bit), d.collision ||| (bit &&& cell)⟩

/-- Draw the eight pixels of one sprite row, the first of them at the given row and column. -/
def plotRow (d : Drawing) (row col : Nat) (bits : UInt8) : Drawing :=
  (List.range 8).foldl
    (fun d k ↦ d.plot (Frame.wrapRow row) (Frame.wrapCol (col + k)) (pixel bits k)) d

/-- Draw the rows of a sprite one under the other. -/
def plotRows : Drawing → Nat → Nat → List UInt8 → Drawing
  | d, _, _, [] => d
  | d, row, col, bits :: rest => (d.plotRow row col bits).plotRows (row + 1) col rest

end Drawing

/-- Draw a sprite with its top left pixel at the given row and column. -/
def Frame.draw (f : Frame) (row col : Nat) (sprite : List UInt8) : Drawing :=
  Drawing.plotRows ⟨f, 0⟩ row col sprite

namespace Drawing

private theorem pixel_eq_zero_or_one (row : UInt8) (k : Nat) :
    pixel row k = 0 ∨ pixel row k = 1 := by
  have hn : (pixel row k).toNat = (row >>> UInt8.ofNat (7 - k)).toNat % 2 := by
    rw [pixel, UInt8.toNat_and]
    exact Nat.and_one_is_mod _
  rcases Nat.mod_two_eq_zero_or_one (row >>> UInt8.ofNat (7 - k)).toNat with h | h
  · exact .inl (UInt8.toNat_inj.mp (hn.trans h))
  · exact .inr (UInt8.toNat_inj.mp (hn.trans h))

/-- Drawing a dark or lit pixel keeps every cell dark or lit. -/
theorem binary_plot {d : Drawing} (h : d.frame.Binary) (row : Fin Frame.height)
    (col : Fin Frame.width) {bit : UInt8} (hb : bit = 0 ∨ bit = 1) :
    (d.plot row col bit).frame.Binary := by
  apply h.set
  rcases h row col with hc | hc <;> rcases hb with rfl | rfl <;> rw [hc] <;> decide

/-- Drawing a sprite row keeps every cell dark or lit. -/
theorem binary_plotRow {d : Drawing} (h : d.frame.Binary) (row col : Nat) (bits : UInt8) :
    (d.plotRow row col bits).frame.Binary := by
  unfold plotRow
  induction List.range 8 generalizing d with
  | nil => exact h
  | cons k rest ih => exact ih (binary_plot h _ _ (pixel_eq_zero_or_one bits k))

/-- Drawing a sprite keeps every cell dark or lit. -/
theorem binary_plotRows {d : Drawing} (h : d.frame.Binary) (row col : Nat) (sprite : List UInt8) :
    (d.plotRows row col sprite).frame.Binary := by
  induction sprite generalizing d row with
  | nil => exact h
  | cons bits rest ih => exact ih (binary_plotRow h row col bits) (row + 1)

end Drawing

end ChipEight
