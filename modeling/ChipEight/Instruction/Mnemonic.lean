import ChipEight.Instruction.Decode
import ChipEight.Text.Numeral

/-!
# Mnemonics

The assembly text of instructions, such as `ADD V1, 0x22` or `DRW V0, V1, 15`. Registers are `V` and
one digit, immediate bytes have two digits and addresses three, all hexadecimal; a sprite height is
decimal.
-/

namespace ChipEight

/-- The name of a register. -/
def Register.name (x : Register) : String := "V" ++ Numeral.hex 1 x.val

namespace Instruction

/-- The text of an immediate byte. -/
def byteText (byte : UInt8) : String := Numeral.hexMarked 2 byte.toNat

/-- The text of an address. -/
def addressText (address : UInt16) : String := Numeral.hexMarked 3 address.toNat

/-- The text of two operands. -/
def operands (first second : String) : String := first ++ ", " ++ second

end Instruction

open Instruction

/-- The text of a skipping instruction. -/
def Condition.mnemonic : Condition → String
  | .byteEq x byte => "SE " ++ operands x.name (byteText byte)
  | .byteNe x byte => "SNE " ++ operands x.name (byteText byte)
  | .regEq x y => "SE " ++ operands x.name y.name
  | .regNe x y => "SNE " ++ operands x.name y.name
  | .keyDown x => "SKP " ++ x.name
  | .keyUp x => "SKNP " ++ x.name

/-- The operation name of a combination. -/
def Combination.name : Combination → String
  | .copy => "LD"
  | .or => "OR"
  | .and => "AND"
  | .xor => "XOR"
  | .add => "ADD"
  | .sub => "SUB"
  | .subFrom => "SUBN"

/-- The operation name of a shift. -/
def Shift.name : Shift → String
  | .right => "SHR"
  | .left => "SHL"

/-- The text of an instruction. -/
def Instruction.mnemonic : Instruction → String
  | .native address => "SYS " ++ addressText address
  | .clear => "CLS"
  | .ret => "RET"
  | .jump address => "JP " ++ addressText address
  | .call address => "CALL " ++ addressText address
  | .skip condition => condition.mnemonic
  | .setByte x byte => "LD " ++ operands x.name (byteText byte)
  | .addByte x byte => "ADD " ++ operands x.name (byteText byte)
  | .combine how x y => how.name ++ " " ++ operands x.name y.name
  | .shift direction x => direction.name ++ " " ++ x.name
  | .setIndex address => "LD " ++ operands "I" (addressText address)
  | .jumpOffset address => "JP " ++ operands "V0" (addressText address)
  | .random x mask => "RND " ++ operands x.name (byteText mask)
  | .draw x y height =>
    "DRW " ++ operands x.name (operands y.name (Numeral.decimal height.toNat))
  | .getDelay x => "LD " ++ operands x.name "DT"
  | .awaitKey x => "LD " ++ operands x.name "K"
  | .setDelay x => "LD " ++ operands "DT" x.name
  | .setSound x => "LD " ++ operands "ST" x.name
  | .addIndex x => "ADD " ++ operands "I" x.name
  | .indexDigit x => "LD " ++ operands "F" x.name
  | .storeDecimal x => "LD " ++ operands "B" x.name
  | .storeRegs x => "LD " ++ operands "[I]" x.name
  | .loadRegs x => "LD " ++ operands x.name "[I]"
  | .data word => "DW " ++ Numeral.hexMarked 4 word.toNat

/-- The text of the instruction that a word stands for. -/
def Word.disassemble (w : Word) : String := (decode w).mnemonic

end ChipEight
