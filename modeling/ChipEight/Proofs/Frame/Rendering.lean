import Mathlib.Algebra.GroupWithZero.Nat
import ChipEight.Frame.Text
import ChipEight.Proofs.Frame.Coverage

/-!
# What the text of a picture tells

Every row of a picture takes as many characters of its text as it has cells, and one more for the
line feed. So the place of each cell in the text is known, whatever characters stand for the cells,
a line feed included. Where the two characters differ, the text gives back a picture of dark and lit
cells. The bytes of the text are counted by the lit cells among all.
-/

namespace ChipEight

private theorem getElem?_flatMap_of_length {α β : Type} {part : α → List β} {n : Nat}
    (h : ∀ a, (part a).length = n) (l : List α) (k : Nat) {j : Nat} (hj : j < n) :
    (l.flatMap part)[n * k + j]? = l[k]?.bind fun a ↦ (part a)[j]? := by
  induction l generalizing k with
  | nil => rfl
  | cons a rest ih =>
    rw [List.flatMap_cons]
    cases k with
    | zero =>
      rw [Nat.mul_zero, Nat.zero_add, List.getElem?_append_left (by rw [h]; exact hj)]
      rfl
    | succ k =>
      have hk : n * (k + 1) + j = n + (n * k + j) := by rw [Nat.mul_succ]; omega
      rw [hk, List.getElem?_append_right (by rw [h]; omega), h, Nat.add_sub_cancel_left, ih]
      rfl

private theorem utf8ByteSize_ofList (cs : List Char) :
    (String.ofList cs).utf8ByteSize = (cs.map Char.utf8Size).sum := by
  induction cs with
  | nil => rfl
  | cons c rest ih =>
    have hsplit : String.ofList (c :: rest) = String.singleton c ++ String.ofList rest := by
      rw [String.singleton_eq_ofList, ← String.ofList_append]
      rfl
    rw [hsplit, String.utf8ByteSize_append, String.utf8ByteSize_singleton, ih]
    rfl

namespace Frame

/-- The number of cells that are not dark. -/
def litCells (f : Frame) : Nat := f.cells.toList.countP (· != 0)

/-- A row has a cell for every column. -/
theorem length_row (f : Frame) (r : Fin height) : (f.row r).length = width := by
  rw [row, List.length_map, List.length_finRange]

/-- The cells of a row stand at their columns. -/
theorem getElem?_row (f : Frame) (r : Fin height) (c : Fin width) :
    (f.row r)[c.val]? = some (f.get r c) := by
  simp [row]

private theorem flatMap_row (f : Frame) :
    (List.finRange height).flatMap f.row = f.cells.toList := by
  apply List.ext_getElem?
  intro k
  have hcol : k % width < width := Nat.mod_lt _ (by decide)
  rw [← Nat.div_add_mod k width, getElem?_flatMap_of_length f.length_row _ _ hcol]
  by_cases hk : k / width < height
  · have hplace : width * (k / width) + k % width < height * width := by
      simp only [height, width] at *
      omega
    rw [List.getElem?_eq_getElem (by rw [List.length_finRange]; exact hk),
      List.getElem_finRange, Option.bind_some, f.getElem?_row _ ⟨k % width, hcol⟩,
      List.getElem?_eq_getElem (by rw [Vector.length_toList]; exact hplace)]
    simp [get, index, Nat.mul_comm]
  · have hplace : height * width ≤ width * (k / width) + k % width := by
      simp only [height, width] at *
      omega
    rw [List.getElem?_eq_none (by rw [List.length_finRange]; exact Nat.not_lt.mp hk),
      List.getElem?_eq_none (by rw [Vector.length_toList]; exact hplace)]
    rfl

end Frame

namespace Glyphs

private theorem length_line (g : Glyphs) (cells : List UInt8) :
    (g.line cells).length = cells.length + 1 := by
  rw [line, List.length_append, List.length_map, List.length_singleton]

private theorem length_line_row (g : Glyphs) (f : Frame) (r : Fin Frame.height) :
    (g.line (f.row r)).length = 65 := by
  rw [length_line, f.length_row]

private theorem getElem?_line_row (g : Glyphs) (f : Frame) (r : Fin Frame.height)
    (c : Fin Frame.width) :
    (g.line (f.row r))[c.val]? = some (g.ofCell (f.get r c)) := by
  have hc : c.val < ((f.row r).map g.ofCell).length := by
    rw [List.length_map, f.length_row]
    exact c.isLt
  rw [line, List.getElem?_append_left hc, List.getElem?_map, f.getElem?_row]
  rfl

private theorem getElem?_line_end (g : Glyphs) (f : Frame) (r : Fin Frame.height) :
    (g.line (f.row r))[64]? = some '\n' := by
  have hl : ((f.row r).map g.ofCell).length = 64 := by rw [List.length_map, f.length_row]
  rw [line, List.getElem?_append_right (Nat.le_of_eq hl), hl]
  rfl

private theorem toList_render (g : Glyphs) (f : Frame) :
    (g.render f).toList = (List.finRange Frame.height).flatMap fun r ↦ g.line (f.row r) := by
  rw [render, String.toList_ofList, Frame.rows, List.flatMap_map]

/-- The characters of one row in the text. -/
theorem getElem?_render (g : Glyphs) (f : Frame) (r : Fin Frame.height) {j : Nat} (hj : j < 65) :
    (g.render f).toList[65 * r.val + j]? = (g.line (f.row r))[j]? := by
  rw [toList_render, getElem?_flatMap_of_length (g.length_line_row f) _ _ hj]
  simp

private theorem ofCell_inj {g : Glyphs} (h : g.lit ≠ g.dark) {a b : UInt8} (ha : a = 0 ∨ a = 1)
    (hb : b = 0 ∨ b = 1) (hc : g.ofCell a = g.ofCell b) : a = b := by
  rcases ha with rfl | rfl <;> rcases hb with rfl | rfl
  · rfl
  · exact absurd hc.symm h
  · exact absurd hc h
  · rfl

private theorem utf8Size_cells (g : Glyphs) (cells : List UInt8) :
    ((cells.map g.ofCell).map Char.utf8Size).sum =
      cells.countP (· != 0) * g.lit.utf8Size + cells.countP (· == 0) * g.dark.utf8Size := by
  induction cells with
  | nil => simp
  | cons cell rest ih =>
    rw [List.map_cons, List.map_cons, List.sum_cons, ih, List.countP_cons, List.countP_cons]
    by_cases h : cell = 0
    · simp [ofCell, h, Nat.succ_mul]
      omega
    · simp [ofCell, h, Nat.succ_mul]
      omega

private theorem utf8Size_lines (g : Glyphs) (rows : List (List UInt8)) :
    ((rows.flatMap g.line).map Char.utf8Size).sum =
      rows.flatten.countP (· != 0) * g.lit.utf8Size +
        rows.flatten.countP (· == 0) * g.dark.utf8Size + rows.length := by
  induction rows with
  | nil => simp
  | cons cells rest ih =>
    have hfeed : (['\n'].map Char.utf8Size).sum = 1 := rfl
    rw [List.flatMap_cons, List.map_append, List.sum_append, ih, line, List.map_append,
      List.sum_append, utf8Size_cells, hfeed, List.flatten_cons, List.countP_append,
      List.countP_append, List.length_cons, Nat.add_mul, Nat.add_mul]
    omega

/-- The bytes of the text, by the lit cells among all. -/
theorem utf8ByteSize_render (g : Glyphs) (f : Frame) :
    (g.render f).utf8ByteSize =
      f.litCells * g.lit.utf8Size + (2048 - f.litCells) * g.dark.utf8Size + 32 := by
  have hrows : f.rows.flatten = f.cells.toList := f.flatMap_row
  have hdark : f.cells.toList.countP (· == 0) = 2048 - f.litCells := by
    have hall := List.length_eq_countP_add_countP (· != 0) (l := f.cells.toList)
    have hnot : (fun cell : UInt8 ↦ decide ¬(cell != 0) = true) = (· == 0) := by
      funext cell
      by_cases h : cell = 0 <;> simp [h]
    rw [Vector.length_toList, hnot, ← Frame.litCells] at hall
    change 2048 = _ at hall
    omega
  have hcount : f.rows.length = 32 := by
    rw [Frame.rows, List.length_map, List.length_finRange]
  rw [render, utf8ByteSize_ofList, utf8Size_lines, hrows, hdark, hcount]
  rfl

/-- Rendering loses nothing. The text has 32 lines of 65 characters. In each of them the character
at a column is the dark one if that cell is zero and the lit one if not, and the last is a line
feed. So two pictures of dark and lit cells that have the same text are the same, if the two
characters differ. The number of bytes written follows from the number of lit cells. -/
theorem render_lossless (g : Glyphs) (f : Frame) :
    let text := g.render f
    text.toList.length = 32 * 65 ∧
      (∀ (row : Fin 32) (col : Fin 64),
        text.toList[65 * row.val + col.val]? =
          some (if f.get row col = 0 then g.dark else g.lit)) ∧
      (∀ row : Fin 32, text.toList[65 * row.val + 64]? = some '\n') ∧
      (g.lit ≠ g.dark → f.Binary → ∀ other : Frame, other.Binary → g.render other = text →
        other = f) ∧
      text.toUTF8.size =
        f.litCells * g.lit.utf8Size + (2048 - f.litCells) * g.dark.utf8Size + 32 := by
  intro text
  have hcell (f : Frame) (row : Fin 32) (col : Fin 64) :
      (g.render f).toList[65 * row.val + col.val]? = some (g.ofCell (f.get row col)) := by
    rw [g.getElem?_render f row (by omega), g.getElem?_line_row f row col]
  refine ⟨?_, hcell f, ?_, ?_, g.utf8ByteSize_render f⟩
  · rw [toList_render, List.length_flatMap]
    simp only [length_line_row]
    rfl
  · intro row
    rw [g.getElem?_render f row (by decide), g.getElem?_line_end f row]
  · intro hne hf other hother htext
    apply Frame.ext_get
    intro row col
    have hsame := hcell other row col
    rw [htext, hcell f row col] at hsame
    exact (ofCell_inj hne (hf row col) (hother row col) (Option.some.inj hsame)).symm

/-- A picture of which only the last cell is lit, with a line feed for dark cells. No other picture
of dark and lit cells has its text, though line feeds stand for cells and end lines alike. The lit
cell takes three bytes. -/
theorem render_lossless_of_last_cell :
    let g : Glyphs := ⟨'█', '\n'⟩
    let f := Frame.blank.set 31 63 1
    f.Binary ∧ g.lit ≠ g.dark ∧ (g.render f).toList[65 * 31 + 63]? = some '█' ∧
      (∀ other : Frame, other.Binary → g.render other = g.render f → other = f) ∧
      (g.render f).toUTF8.size = 2082 := by
  intro g f
  have hf : f.Binary := Frame.binary_blank.set (.inr rfl) 31 63
  have hne : g.lit ≠ g.dark := by decide
  have hlit : f.litCells = 1 := by decide +kernel +zetaReduce
  have hlast : f.get 31 63 = 1 := by decide +kernel +zetaReduce
  obtain ⟨-, hcells, -, hlossless, hsize⟩ := render_lossless g f
  refine ⟨hf, hne, ?_, hlossless hne hf, ?_⟩
  · have hcell := hcells 31 63
    rw [hlast] at hcell
    exact hcell
  · rw [hsize, hlit]
    rfl

end Glyphs

end ChipEight
