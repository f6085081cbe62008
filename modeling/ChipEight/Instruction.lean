import ChipEight.State

/-!
# Instructions

What a word can ask of the machine. Operands are register numbers, immediate bytes and addresses,
never register values. The six tests of the skipping instructions, the seven combinations of two
registers and the two shifts are types of their own.
-/

namespace ChipEight

/-- What a skipping instruction tests. -/
inductive Condition where
  /-- Words `3xkk`. -/
  | byteEq (x : Register) (byte : UInt8)
  /-- Words `4xkk`. -/
  | byteNe (x : Register) (byte : UInt8)
  /-- Words `5xy0`. -/
  | regEq (x y : Register)
  /-- Words `9xy0`. -/
  | regNe (x y : Register)
  /-- Words `Ex9E`. -/
  | keyDown (x : Register)
  /-- Words `ExA1`. -/
  | keyUp (x : Register)
  deriving DecidableEq

/-- How two registers are combined into the first: words `8xy0` to `8xy5` and `8xy7`. -/
inductive Combination where
  | copy
  | or
  | and
  | xor
  | add
  | sub
  | subFrom
  deriving DecidableEq

/-- The direction in which a register is shifted by one bit: words `8xy6` and `8xyE`. -/
inductive Shift where
  | right
  | left
  deriving DecidableEq

/-- An instruction with its operands. -/
inductive Instruction where
  /-- Words `0nnn`: a call of native code, which is ignored. -/
  | native (address : UInt16)
  /-- The word `00E0`. -/
  | clear
  /-- The word `00EE`. -/
  | ret
  /-- Words `1nnn`. -/
  | jump (address : UInt16)
  /-- Words `2nnn`. -/
  | call (address : UInt16)
  /-- Words that skip the next word when a condition holds. -/
  | skip (condition : Condition)
  /-- Words `6xkk`. -/
  | setByte (x : Register) (byte : UInt8)
  /-- Words `7xkk`. -/
  | addByte (x : Register) (byte : UInt8)
  /-- Words that combine two registers. -/
  | combine (how : Combination) (x y : Register)
  /-- Words that shift one register. -/
  | shift (direction : Shift) (x : Register)
  /-- Words `Annn`. -/
  | setIndex (address : UInt16)
  /-- Words `Bnnn`. -/
  | jumpOffset (address : UInt16)
  /-- Words `Cxkk`. -/
  | random (x : Register) (mask : UInt8)
  /-- Words `Dxyn`, which leave half of the bits of the height unused. -/
  | draw (x y : Register) (height : UInt8)
  /-- Words `Fx07`. -/
  | getDelay (x : Register)
  /-- Words `Fx0A`. -/
  | awaitKey (x : Register)
  /-- Words `Fx15`. -/
  | setDelay (x : Register)
  /-- Words `Fx18`. -/
  | setSound (x : Register)
  /-- Words `Fx1E`. -/
  | addIndex (x : Register)
  /-- Words `Fx29`. -/
  | indexDigit (x : Register)
  /-- Words `Fx33`. -/
  | storeDecimal (x : Register)
  /-- Words `Fx55`. -/
  | storeRegs (x : Register)
  /-- Words `Fx65`. -/
  | loadRegs (x : Register)
  /-- Every other word, which is data and ignored when run. -/
  | data (word : Word)
  deriving DecidableEq

/-- The address operand of an instruction, if it has one. -/
def Instruction.address? : Instruction → Option UInt16
  | .native address => some address
  | .jump address => some address
  | .call address => some address
  | .setIndex address => some address
  | .jumpOffset address => some address
  | _ => none

end ChipEight
