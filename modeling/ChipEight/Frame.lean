/-!
# Frames

The picture that programs draw: 32 rows of 64 cells, each 0 (dark) or 1 (lit), stored row by row.
-/

namespace ChipEight

namespace Frame

/-- The number of cells in a row. -/
abbrev width : Nat := 64

/-- The number of rows. -/
abbrev height : Nat := 32

end Frame

/-- The cells of a picture, row by row from the top and each row from the left. -/
structure Frame where
  cells : Vector UInt8 (Frame.height * Frame.width)
  deriving DecidableEq

namespace Frame

/-- The picture with every cell dark. -/
def blank : Frame := ⟨.replicate (height * width) 0⟩

/-- The place of a cell among all cells. -/
def index (row : Fin height) (col : Fin width) : Fin (height * width) :=
  ⟨row.val * width + col.val, by
    have := row.isLt
    have := col.isLt
    simp only [height, width] at *
    omega⟩

/-- The row that a vertical position falls on; past the bottom it comes back at the top. -/
def wrapRow (y : Nat) : Fin height := ⟨y % height, Nat.mod_lt _ (by decide)⟩

/-- The column that a horizontal position falls on; past the right it comes back at the left. -/
def wrapCol (x : Nat) : Fin width := ⟨x % width, Nat.mod_lt _ (by decide)⟩

/-- The cell at a row and column. -/
def get (f : Frame) (row : Fin height) (col : Fin width) : UInt8 := f.cells[index row col]

/-- The picture with one cell changed. -/
def set (f : Frame) (row : Fin height) (col : Fin width) (cell : UInt8) : Frame :=
  ⟨f.cells.set (index row col).val cell (index row col).isLt⟩

/-- The cells of one row, from the left. -/
def row (f : Frame) (r : Fin height) : List UInt8 := (List.finRange width).map (f.get r)

/-- All rows, from the top. -/
def rows (f : Frame) : List (List UInt8) := (List.finRange height).map f.row

/-- Every cell is dark or lit. -/
def Binary (f : Frame) : Prop := ∀ row col, f.get row col = 0 ∨ f.get row col = 1

private theorem index_inj {r r' : Fin height} {c c' : Fin width} :
    index r c = index r' c' ↔ r = r' ∧ c = c' := by
  have := c.isLt
  have := c'.isLt
  simp only [index, Fin.ext_iff, width] at *
  omega

/-- Every cell of the blank picture is dark. -/
theorem get_blank (r : Fin height) (c : Fin width) : blank.get r c = 0 := by
  simp [get, blank]

/-- Changing a cell changes that cell only. -/
theorem get_set (f : Frame) (r r' : Fin height) (c c' : Fin width) (cell : UInt8) :
    (f.set r c cell).get r' c' = if r = r' ∧ c = c' then cell else f.get r' c' := by
  by_cases h : r = r' ∧ c = c'
  · obtain ⟨rfl, rfl⟩ := h
    simp [get, set]
  · have hi : (index r c).val ≠ (index r' c').val := fun he ↦ h (index_inj.mp (Fin.ext he))
    rw [if_neg h]
    exact Vector.getElem_set_ne (index r c).isLt (index r' c').isLt hi

/-- The blank picture has dark cells only. -/
theorem binary_blank : blank.Binary := fun r c ↦ .inl (get_blank r c)

/-- A cell made dark or lit keeps every cell dark or lit. -/
theorem Binary.set {f : Frame} (h : f.Binary) {cell : UInt8} (hc : cell = 0 ∨ cell = 1)
    (r : Fin height) (c : Fin width) : (f.set r c cell).Binary := by
  intro r' c'
  rw [get_set]
  split
  · exact hc
  · exact h r' c'

end Frame

end ChipEight
