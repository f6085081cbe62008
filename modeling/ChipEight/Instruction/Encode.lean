import ChipEight.Instruction.Decode

/-!
# Encoding

The word of an instruction, put together from its family, its operands and what tells it apart
within the family. Shifts pay no attention to the third nibble of their words. Apart from that
nibble nothing is lost by decoding: every word is put together again from the instruction that it
stands for.
-/

namespace ChipEight

namespace Word

/-- The word with four nibbles, most significant first. -/
def ofNibbles (family : Nat) (x y : Fin 16) (n : Nat) : Word :=
  .ofNat (4096 * family + 256 * x.val + 16 * y.val + n)

/-- The word with a family, a register operand and a low byte. -/
def ofByte (family : Nat) (x : Fin 16) (byte : UInt8) : Word :=
  .ofNat (4096 * family + 256 * x.val + byte.toNat)

/-- The word with a family and an address operand. -/
def ofAddress (family : Nat) (address : UInt16) : Word := .ofNat (4096 * family + address.toNat)

variable {w : Word} {family n : Nat} {byte : UInt8}

private theorem ofNibbles_x_y (hf : w.family.val = family) (hn : w.n.val = n) :
    ofNibbles family w.x w.y n = w := by
  have := w.toNat_lt
  apply UInt16.toNat_inj.mp
  simp only [Word.family, Word.n, nibble] at hf hn
  simp only [ofNibbles, x, y, nibble, UInt16.toNat_ofNat']
  omega

private theorem ofByte_x (hf : w.family.val = family) (hl : w.low.toNat = byte.toNat) :
    ofByte family w.x byte = w := by
  have := w.toNat_lt
  apply UInt16.toNat_inj.mp
  simp only [Word.family, nibble, low, UInt8.toNat_ofNat'] at hf hl
  simp only [ofByte, x, nibble, UInt16.toNat_ofNat']
  omega

private theorem ofAddress_address (hf : w.family.val = family) :
    ofAddress family w.address = w := by
  have := w.toNat_lt
  apply UInt16.toNat_inj.mp
  simp only [Word.family, nibble] at hf
  simp only [ofAddress, address, UInt16.toNat_ofNat']
  omega

private theorem nibbles_ofNibbles (x y : Fin 16) (hf : family < 16) (hn : n < 16) :
    (ofNibbles family x y n).family.val = family ∧ (ofNibbles family x y n).x = x ∧
      (ofNibbles family x y n).n.val = n := by
  have hw : (ofNibbles family x y n).toNat = 4096 * family + 256 * x.val + 16 * y.val + n := by
    rw [ofNibbles, UInt16.toNat_ofNat']
    omega
  simp only [Word.family, Word.x, Word.n, nibble, hw, Fin.ext_iff]
  omega

end Word

/-- The least significant nibble of the words of a combination. -/
def Combination.code : Combination → Nat
  | .copy => 0x0
  | .or => 0x1
  | .and => 0x2
  | .xor => 0x3
  | .add => 0x4
  | .sub => 0x5
  | .subFrom => 0x7

/-- The least significant nibble of the words of a shift. -/
def Shift.code : Shift → Nat
  | .right => 0x6
  | .left => 0xE

/-- The word that skips the next one under a condition. -/
def Condition.encode : Condition → Word
  | .byteEq x byte => .ofByte 0x3 x byte
  | .byteNe x byte => .ofByte 0x4 x byte
  | .regEq x y => .ofNibbles 0x5 x y 0
  | .regNe x y => .ofNibbles 0x9 x y 0
  | .keyDown x => .ofByte 0xE x 0x9E
  | .keyUp x => .ofByte 0xE x 0xA1

namespace Instruction

/-- The word of an instruction, whose third nibble is `ignored` if it is a shift. -/
def encode (ignored : Fin 16) : Instruction → Word
  | .native address => .ofAddress 0x0 address
  | .clear => 0x00E0
  | .ret => 0x00EE
  | .jump address => .ofAddress 0x1 address
  | .call address => .ofAddress 0x2 address
  | .skip condition => condition.encode
  | .setByte x byte => .ofByte 0x6 x byte
  | .addByte x byte => .ofByte 0x7 x byte
  | .combine how x y => .ofNibbles 0x8 x y how.code
  | .shift direction x => .ofNibbles 0x8 x ignored direction.code
  | .setIndex address => .ofAddress 0xA address
  | .jumpOffset address => .ofAddress 0xB address
  | .random x mask => .ofByte 0xC x mask
  | .draw x y height => .ofNibbles 0xD x y height.toNat
  | .getDelay x => .ofByte 0xF x 0x07
  | .awaitKey x => .ofByte 0xF x 0x0A
  | .setDelay x => .ofByte 0xF x 0x15
  | .setSound x => .ofByte 0xF x 0x18
  | .addIndex x => .ofByte 0xF x 0x1E
  | .indexDigit x => .ofByte 0xF x 0x29
  | .storeDecimal x => .ofByte 0xF x 0x33
  | .storeRegs x => .ofByte 0xF x 0x55
  | .loadRegs x => .ofByte 0xF x 0x65
  | .data word => word

variable {w : Word}

private theorem encode_decodeArithmetic (hf : w.family.val = 0x8) :
    (decodeArithmetic w).encode w.y = w := by
  unfold decodeArithmetic
  split
  case h_10 => rfl
  all_goals next hn => exact Word.ofNibbles_x_y hf hn

private theorem encode_decodeMisc (hf : w.family.val = 0xF) (ignored : Fin 16) :
    (decodeMisc w).encode ignored = w := by
  unfold decodeMisc
  split
  case h_10 => rfl
  all_goals next hl => exact Word.ofByte_x hf hl

/-- Every word is put together again from the instruction that it stands for and its third
nibble. -/
theorem encode_decode (w : Word) : (decode w).encode w.y = w := by
  unfold decode
  split
  case h_1 hf =>
    split
    · next hc => exact hc.symm
    · split
      · next hr => exact hr.symm
      · exact Word.ofAddress_address hf
  case h_2 hf | h_3 hf | h_11 hf | h_12 hf => exact Word.ofAddress_address hf
  case h_4 hf | h_5 hf | h_7 hf | h_8 hf | h_13 hf => exact Word.ofByte_x hf rfl
  case h_6 hf | h_10 hf =>
    split
    · next hn => exact Word.ofNibbles_x_y hf hn
    · rfl
  case h_9 hf => exact encode_decodeArithmetic hf
  case h_14 hf =>
    have hn : (UInt8.ofNat w.n.val).toNat = w.n.val :=
      UInt8.toNat_ofNat_of_lt (Nat.lt_trans w.n.isLt (by decide))
    exact Word.ofNibbles_x_y hf hn.symm
  case h_15 hf =>
    split
    · next hl => exact Word.ofByte_x hf (congrArg UInt8.toNat hl)
    · split
      · next hl => exact Word.ofByte_x hf (congrArg UInt8.toNat hl)
      · rfl
  case h_16 =>
    have hf : w.family.val = 0xF := by grind
    exact encode_decodeMisc hf w.y

/-- Only the words of shifts pay no attention to a nibble. -/
theorem encode_eq_of_ne_shift {ins : Instruction} (h : ∀ direction x, ins ≠ .shift direction x)
    (a b : Fin 16) : ins.encode a = ins.encode b := by
  cases ins with
  | shift direction x => exact absurd rfl (h direction x)
  | _ => rfl

/-- A word of the form of a shift stands for it, whatever its third nibble is. -/
theorem decode_encode_shift (direction : Shift) (x ignored : Fin 16) :
    decode ((shift direction x).encode ignored) = .shift direction x := by
  have hcode : direction.code < 16 := by cases direction <;> decide
  have hfamily : 0x8 < 16 := by decide
  obtain ⟨hf, hx, hn⟩ := Word.nibbles_ofNibbles x ignored hfamily hcode
  cases direction <;> simp only [encode, decode, decodeArithmetic, hf, hx, hn] <;> rfl

end Instruction

end ChipEight
