import ChipEight.Frame

/-!
# Frames as text

A picture as lines of characters, one line a row and one character a cell.
-/

namespace ChipEight

/-- The characters that stand for lit and dark cells. -/
structure Glyphs where
  lit : Char := '█'
  dark : Char := ' '
  deriving DecidableEq

namespace Glyphs

/-- The character for a cell. -/
def ofCell (g : Glyphs) (cell : UInt8) : Char := if cell = 0 then g.dark else g.lit

/-- The line for one row, with its line feed. -/
def line (g : Glyphs) (cells : List UInt8) : List Char := cells.map g.ofCell ++ ['\n']

/-- The text of a picture. -/
def render (g : Glyphs) (f : Frame) : String := String.ofList (f.rows.flatMap g.line)

end Glyphs

end ChipEight
