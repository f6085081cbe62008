import ChipEight.Instruction

/-!
# Decoding

The instruction that a word stands for: first by its family, then, in the families that several
instructions share, by the least significant nibble or byte. Every word stands for exactly one
instruction.
-/

namespace ChipEight.Instruction

/-- Words of family 8, told apart by their least significant nibble. -/
def decodeArithmetic (w : Word) : Instruction :=
  match w.n.val with
  | 0x0 => .combine .copy w.x w.y
  | 0x1 => .combine .or w.x w.y
  | 0x2 => .combine .and w.x w.y
  | 0x3 => .combine .xor w.x w.y
  | 0x4 => .combine .add w.x w.y
  | 0x5 => .combine .sub w.x w.y
  | 0x6 => .shift .right w.x
  | 0x7 => .combine .subFrom w.x w.y
  | 0xE => .shift .left w.x
  | _ => .data w

/-- Words of family F, told apart by their low byte. -/
def decodeMisc (w : Word) : Instruction :=
  match w.low.toNat with
  | 0x07 => .getDelay w.x
  | 0x0A => .awaitKey w.x
  | 0x15 => .setDelay w.x
  | 0x18 => .setSound w.x
  | 0x1E => .addIndex w.x
  | 0x29 => .indexDigit w.x
  | 0x33 => .storeDecimal w.x
  | 0x55 => .storeRegs w.x
  | 0x65 => .loadRegs w.x
  | _ => .data w

/-- The instruction that a word stands for. -/
def decode (w : Word) : Instruction :=
  match w.family.val with
  | 0x0 => if w = 0x00E0 then .clear else if w = 0x00EE then .ret else .native w.address
  | 0x1 => .jump w.address
  | 0x2 => .call w.address
  | 0x3 => .skip (.byteEq w.x w.low)
  | 0x4 => .skip (.byteNe w.x w.low)
  | 0x5 => if w.n.val = 0 then .skip (.regEq w.x w.y) else .data w
  | 0x6 => .setByte w.x w.low
  | 0x7 => .addByte w.x w.low
  | 0x8 => decodeArithmetic w
  | 0x9 => if w.n.val = 0 then .skip (.regNe w.x w.y) else .data w
  | 0xA => .setIndex w.address
  | 0xB => .jumpOffset w.address
  | 0xC => .random w.x w.low
  | 0xD => .draw w.x w.y (UInt8.ofNat w.n.val)
  | 0xE =>
    if w.low = 0x9E then .skip (.keyDown w.x)
    else if w.low = 0xA1 then .skip (.keyUp w.x)
    else .data w
  | _ => decodeMisc w

/-- Words of family 8 have no address operand. -/
theorem address?_decodeArithmetic (w : Word) : (decodeArithmetic w).address? = none := by
  unfold decodeArithmetic
  split <;> rfl

/-- Words of family F have no address operand. -/
theorem address?_decodeMisc (w : Word) : (decodeMisc w).address? = none := by
  unfold decodeMisc
  split <;> rfl

/-- The address operand of a decoded instruction is that of its word. -/
theorem eq_address_of_decode {w : Word} {address : UInt16}
    (h : (decode w).address? = some address) : address = w.address := by
  have ha := address?_decodeArithmetic w
  have hm := address?_decodeMisc w
  unfold decode at h
  repeat' split at h
  all_goals simp_all [address?]

/-- Address operands stay below the size of memory. -/
theorem toNat_address_lt_of_decode {w : Word} {address : UInt16}
    (h : (decode w).address? = some address) : address.toNat < Memory.size := by
  rw [eq_address_of_decode h]
  exact w.address_lt

end ChipEight.Instruction
