/-!
# The built-in font

Sprites of the sixteen hexadecimal digits. Each digit is five rows high and four pixels wide, so
only the high nibble of a row is used: `0` is the rows `F0 90 90 90 F0`.
-/

namespace ChipEight.Font

/-- The address of the first sprite. -/
def start : Nat := 0

/-- The number of rows, and so of bytes, in the sprite of one digit. -/
def height : Nat := 5

/-- The rows of all digits, one digit after the other. -/
def sheet : List UInt8 := [
  0xF0, 0x90, 0x90, 0x90, 0xF0,
  0x20, 0x60, 0x20, 0x20, 0x70,
  0xF0, 0x10, 0xF0, 0x80, 0xF0,
  0xF0, 0x10, 0xF0, 0x10, 0xF0,
  0x90, 0x90, 0xF0, 0x10, 0x10,
  0xF0, 0x80, 0xF0, 0x10, 0xF0,
  0xF0, 0x80, 0xF0, 0x90, 0xF0,
  0xF0, 0x10, 0x20, 0x40, 0x40,
  0xF0, 0x90, 0xF0, 0x90, 0xF0,
  0xF0, 0x90, 0xF0, 0x10, 0xF0,
  0xF0, 0x90, 0xF0, 0x90, 0x90,
  0xE0, 0x90, 0xE0, 0x90, 0xE0,
  0xF0, 0x80, 0x80, 0x80, 0xF0,
  0xE0, 0x90, 0x90, 0x90, 0xE0,
  0xF0, 0x80, 0xF0, 0x80, 0xF0,
  0xF0, 0x80, 0xF0, 0x80, 0x80]

/-- The address of the sprite of a digit. -/
def address (digit : Fin 16) : UInt16 := UInt16.ofNat (start + height * digit.val)

end ChipEight.Font
