/-!
# Noise

Bytes for random instructions: a fixed function from a seed and a position, each byte a well-mixed
part of a counter that grows with the position by a large odd number.
-/

namespace ChipEight.Noise

/-- Spread the bits of a counter over the whole word. -/
def mix (z : UInt64) : UInt64 :=
  let z := (z ^^^ (z >>> 30)) * 0xBF58476D1CE4E5B9
  let z := (z ^^^ (z >>> 27)) * 0x94D049BB133111EB
  z ^^^ (z >>> 31)

/-- The byte at a position of the sequence with a seed. -/
def byte (seed : UInt64) (position : Nat) : UInt8 :=
  (mix (seed + UInt64.ofNat (position + 1) * 0x9E3779B97F4A7C15) >>> 56).toUInt8

end ChipEight.Noise
