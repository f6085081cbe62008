/-!
# Sets of characters

A set of characters is a list of ranges of code points, each given by its first and last member.
-/

namespace ChipEight

/-- A set of characters, as ranges of code points with both ends included. -/
structure Charset where
  ranges : List (Nat × Nat)

namespace Charset

/-- Whether a character lies in one of the ranges. -/
def contains (s : Charset) (c : Char) : Bool :=
  s.ranges.any fun (first, last) ↦ first ≤ c.toNat && c.toNat ≤ last

/-- Characters that leave no mark of their own: controls, format characters, separators other than
the space itself (general categories Cc, Cf, Zl, Zp and Zs), and the four fillers that hold an empty
place in a Hangul syllable. -/
def invisible : Charset := ⟨[
  (0x0, 0x1F), (0x7F, 0xA0), (0xAD, 0xAD), (0x600, 0x605), (0x61C, 0x61C), (0x6DD, 0x6DD),
  (0x70F, 0x70F), (0x890, 0x891), (0x8E2, 0x8E2), (0x115F, 0x1160), (0x1680, 0x1680),
  (0x180E, 0x180E), (0x2000, 0x200F), (0x2028, 0x202F), (0x205F, 0x2064), (0x2066, 0x206F),
  (0x3000, 0x3000), (0x3164, 0x3164), (0xFEFF, 0xFEFF), (0xFFA0, 0xFFA0), (0xFFF9, 0xFFFB),
  (0x110BD, 0x110BD), (0x110CD, 0x110CD), (0x13430, 0x1343F), (0x1BCA0, 0x1BCA3),
  (0x1D173, 0x1D17A), (0xE0001, 0xE0001), (0xE0020, 0xE007F)]⟩

end Charset

end ChipEight
