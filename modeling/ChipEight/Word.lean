/-!
# Instruction words

A program is a sequence of sixteen-bit words, stored high byte first. Read as four nibbles `f x y
n`, a word carries its family `f`, two register numbers `x` and `y`, a small operand `n`, an
immediate byte (`y n` together) and a twelve-bit address (`x y n` together). Which of these fields
mean anything is up to decoding.
-/

namespace ChipEight

/-- A sixteen-bit instruction word. -/
abbrev Word := UInt16

namespace Word

/-- The word stored as two bytes, the high one first. -/
def ofBytes (high low : UInt8) : Word := UInt16.ofNat (256 * high.toNat + low.toNat)

/-- The byte stored second, which is also the immediate operand. -/
def low (w : Word) : UInt8 := UInt8.ofNat w.toNat

/-- The nibble with a place value: 1, 16, 256 or 4096. -/
def nibble (w : Word) (place : Nat) : Fin 16 := ⟨w.toNat / place % 16, Nat.mod_lt _ (by decide)⟩

/-- The most significant nibble, which names the instruction family. -/
def family (w : Word) : Fin 16 := w.nibble 4096

/-- The first register operand. -/
def x (w : Word) : Fin 16 := w.nibble 256

/-- The second register operand. -/
def y (w : Word) : Fin 16 := w.nibble 16

/-- The least significant nibble: a sprite height, or a choice within a family. -/
def n (w : Word) : Fin 16 := w.nibble 1

/-- The low twelve bits, an address in memory. -/
def address (w : Word) : UInt16 := UInt16.ofNat (w.toNat % 4096)

/-- The address operand stays below the size of memory. -/
theorem address_lt (w : Word) : w.address.toNat < 4096 := by
  simp only [address, UInt16.toNat_ofNat']
  omega

/-- The number of a composed word. -/
theorem toNat_ofBytes (h l : UInt8) : (ofBytes h l).toNat = 256 * h.toNat + l.toNat := by
  have := h.toNat_lt
  have := l.toNat_lt
  rw [ofBytes, UInt16.toNat_ofNat']
  omega

end Word

end ChipEight
