import ChipEight.Frame.Sprite
import ChipEight.Instruction
import ChipEight.Keypad

/-!
# Execution of one instruction

The state that follows a state under an instruction, given the keys and the byte that the source of
randomness offers. Flags are written after results, so that an instruction whose result goes to the
flag register leaves the flag there. The index saturates rather than wrap, and so stays outside
memory once past its end. Waiting for a key that is not down leaves the state as it is, and the same
instruction runs again.
-/

namespace ChipEight

/-- The result of combining two values, and the flag where there is one: the carry of a sum, and for
a difference that it did not borrow. -/
def Combination.apply (a b : UInt8) : Combination → UInt8 × Option UInt8
  | .copy => (b, none)
  | .or => (a ||| b, none)
  | .and => (a &&& b, none)
  | .xor => (a ^^^ b, none)
  | .add => (a + b, some (a + b < a : Bool).toUInt8)
  | .sub => (a - b, some (b ≤ a : Bool).toUInt8)
  | .subFrom => (b - a, some (a ≤ b : Bool).toUInt8)

/-- The shifted value and the bit shifted out. -/
def Shift.apply (a : UInt8) : Shift → UInt8 × UInt8
  | .right => (a >>> 1, a &&& 1)
  | .left => (a <<< 1, a >>> 7)

/-- The digit, and so the key, that the low half of a value names. -/
def lowDigit (a : UInt8) : Fin 16 := ⟨a.toNat % 16, Nat.mod_lt _ (by decide)⟩

/-- The three decimal digits of a value, hundreds first. -/
def decimalDigits (a : UInt8) : List UInt8 := [a / 100, a / 10 % 10, a % 10]

/-- Whether a condition holds. -/
def Condition.holds (s : State) (keys : Keypad) : Condition → Bool
  | .byteEq x byte => s.reg x == byte
  | .byteNe x byte => s.reg x != byte
  | .regEq x y => s.reg x == s.reg y
  | .regNe x y => s.reg x != s.reg y
  | .keyDown x => keys.isDown (lowDigit (s.reg x))
  | .keyUp x => !keys.isDown (lowDigit (s.reg x))

/-- The index plus a value, or the greatest index if that is less. -/
def addToIndex (i : UInt16) (a : UInt8) : UInt16 := UInt16.ofNat (min (i.toNat + a.toNat) 0xFFFF)

/-- The state that follows `s` under an instruction; `noise` is the byte that `random` draws. -/
def Instruction.execute (ins : Instruction) (s : State) (keys : Keypad) (noise : UInt8) :
    Except Fault State :=
  match ins with
  | .native _ => .ok s.advance
  | .data _ => .ok s.advance
  | .clear => .ok { s.advance with frame := .blank, drawn := true }
  | .ret => do
    let (pc, stack) ← s.stack.pop
    return { s with pc, stack }
  | .jump address => .ok { s with pc := address }
  | .call address => do
    let stack ← s.stack.push (s.pc + 2)
    return { s with pc := address, stack }
  | .skip condition => .ok (if condition.holds s keys then s.advance.advance else s.advance)
  | .setByte x byte => .ok (s.setReg x byte).advance
  | .addByte x byte => .ok (s.setReg x (s.reg x + byte)).advance
  | .combine how x y =>
    let result := how.apply (s.reg x) (s.reg y)
    .ok ((s.setReg x result.1).setFlag result.2).advance
  | .shift direction x =>
    let result := direction.apply (s.reg x)
    .ok ((s.setReg x result.1).setFlag (some result.2)).advance
  | .setIndex address => .ok { s.advance with i := address }
  | .jumpOffset address => .ok { s with pc := address + (s.reg .offset).toUInt16 }
  | .random x mask => .ok (s.setReg x (noise &&& mask)).advance
  | .draw x y height => do
    let sprite ← s.memory.readShort s.i height
    let drawing := s.frame.draw (s.reg y).toNat (s.reg x).toNat sprite
    let flagged := (s.setFlag (some drawing.collision)).advance
    return { flagged with frame := drawing.frame, drawn := true }
  | .getDelay x => .ok (s.setReg x s.delay).advance
  | .awaitKey x =>
    match keys.lowest? with
    | some key => .ok (s.setReg x (UInt8.ofNat key.val)).advance
    | none => .ok s
  | .setDelay x => .ok { s.advance with delay := s.reg x }
  | .setSound x => .ok { s.advance with sound := s.reg x }
  | .addIndex x => .ok { s.advance with i := addToIndex s.i (s.reg x) }
  | .indexDigit x => .ok { s.advance with i := Font.address (lowDigit (s.reg x)) }
  | .storeDecimal x => do
    let memory ← s.memory.write s.i (decimalDigits (s.reg x))
    return { s.advance with memory }
  | .storeRegs x => do
    let memory ← s.memory.write s.i (s.regsUpTo x)
    return { s.advance with memory }
  | .loadRegs x => do
    let values ← s.memory.readShort s.i x.count
    return (s.setRegs values).advance

end ChipEight
