import ChipEight.Instruction.Decode
import ChipEight.Instruction.Execute

/-!
# Checked execution

Execution that takes nothing for granted. Sums and products of addresses must fit in sixteen bits,
the sum of an address and a length in sixty-four, and registers, keys, stack slots, bytes of memory
and cells of the picture are looked up by numbers, which must exist. Where a check fails there is no
result; a fault of the program is a result like any other.
-/

namespace ChipEight

/-- The result of a checked computation: nothing if a check failed, else a value or a fault. -/
abbrev Checked (α : Type) : Type := ExceptT Fault Option α

namespace Checked

/-- The sum of two addresses. -/
def add (a b : UInt16) : Option UInt16 :=
  if a.toNat + b.toNat < UInt16.size then some (a + b) else none

/-- The product of two addresses. -/
def mul (a b : UInt16) : Option UInt16 :=
  if a.toNat * b.toNat < UInt16.size then some (a * b) else none

/-- The value of the register with a number. -/
def reg (s : State) (number : Nat) : Option UInt8 := s.v[number]?

/-- The state with the register with a number changed. -/
def setReg (s : State) (number : Nat) (value : UInt8) : Option State :=
  if h : number < 16 then some { s with v := s.v.set number value } else none

/-- The values of the registers up to and including the one with a number. -/
def regsUpTo (s : State) (number : Nat) : Option (List UInt8) :=
  if number < 16 then some (s.v.toList.take (number + 1)) else none

/-- The state whose registers up to and including the one with a number hold the given values, of
which there must be one for each. -/
def setRegsUpTo (s : State) (number : Nat) (values : List UInt8) : Option State :=
  if number < 16 ∧ values.length = number + 1 then some (s.setRegs values) else none

/-- The state with the program counter moved forward. -/
def advance (s : State) (bytes : UInt16) : Option State := do
  return { s with pc := ← add s.pc bytes }

/-- Whether the key that the low half of a value names is down. -/
def isDown (keys : Keypad) (value : UInt8) : Option Bool := keys.down[(value &&& 0xF).toNat]?

/-- The stack with one more slot filled. -/
def fillSlot (s : CallStack) (addr : UInt16) : Option CallStack :=
  if h : s.depth < CallStack.capacity then some ⟨s.slots.set s.depth addr, s.depth + 1, h⟩
  else none

/-- Put a return address on top, unless every slot is live. -/
def push (s : CallStack) (addr : UInt16) : Checked CallStack :=
  if s.depth = CallStack.capacity then throw (.stackOverflow CallStack.capacity)
  else fillSlot s addr

/-- Take the newest return address off, unless no slot is live. -/
def pop (s : CallStack) : Checked (UInt16 × CallStack) :=
  if s.depth = 0 then throw .stackUnderflow
  else do
    let addr ← (s.slots[s.depth - 1]? : Option UInt16)
    return (addr, ⟨s.slots, s.depth - 1, Nat.le_trans (Nat.sub_le _ _) s.depth_le⟩)

/-- The contents of `len` cells from index `start` on. -/
def cells (m : Memory) (start len : Nat) : Option (List UInt8) :=
  (List.range len).mapM fun k ↦ m.bytes[start + k]?

/-- The sum of an address and a length. -/
def addLength (addr : UInt16) (len : UInt64) : Option UInt64 :=
  if addr.toNat + len.toNat < UInt64.size then some (addr.toUInt64 + len) else none

/-- The `len` bytes from `addr` on. -/
def read (m : Memory) (addr : UInt16) (len : UInt64) : Checked (List UInt8) := do
  let stop ← addLength addr len
  if Memory.size < stop.toNat then throw (Memory.outOfBounds addr)
  else cells m addr.toNat len.toNat

/-- Write `data` over consecutive cells from index `start` on. -/
def overwrite : Vector UInt8 Memory.size → Nat → List UInt8 → Option (Vector UInt8 Memory.size)
  | cells, _, [] => some cells
  | cells, start, b :: rest =>
    if h : start < Memory.size then overwrite (cells.set start b) (start + 1) rest else none

/-- Memory with `data` stored from `addr` on. -/
def write (m : Memory) (addr : UInt16) (data : List UInt8) : Checked Memory :=
  if Memory.size < addr.toNat + data.length then throw (Memory.outOfBounds addr)
  else do return ⟨← overwrite m.bytes addr.toNat data⟩

/-- The word that the program counter points at. -/
def fetch (s : State) : Checked Word := do
  let bytes ← read s.memory s.pc 2
  return .ofBytes (← (bytes[0]? : Option UInt8)) (← (bytes[1]? : Option UInt8))

/-- The pixel of a sprite row `k` places from its left end, which must not be past its right end. -/
def pixel (row : UInt8) (k : Nat) : Option UInt8 :=
  if k ≤ 7 then some (Drawing.pixel row k) else none

/-- Draw one pixel on the cell at a row and column. -/
def plot (d : Drawing) (row col : Nat) (bit : UInt8) : Option Drawing :=
  if h : row < Frame.height ∧ col < Frame.width then some (d.plot ⟨row, h.1⟩ ⟨col, h.2⟩ bit)
  else none

/-- Draw the eight pixels of one sprite row. -/
def plotRow (d : Drawing) (row col : Nat) (bits : UInt8) : Option Drawing :=
  (List.range 8).foldlM
    (fun d k ↦ do plot d (row % Frame.height) ((col + k) % Frame.width) (← pixel bits k)) d

/-- Draw the rows of a sprite one under the other. -/
def plotRows : Drawing → Nat → Nat → List UInt8 → Option Drawing
  | d, _, _, [] => some d
  | d, row, col, bits :: rest => do plotRows (← plotRow d row col bits) (row + 1) col rest

/-- Whether a condition holds. -/
def holds (s : State) (keys : Keypad) : Condition → Option Bool
  | .byteEq x byte => do return (← reg s x.val) == byte
  | .byteNe x byte => do return (← reg s x.val) != byte
  | .regEq x y => do return (← reg s x.val) == (← reg s y.val)
  | .regNe x y => do return (← reg s x.val) != (← reg s y.val)
  | .keyDown x => do isDown keys (← reg s x.val)
  | .keyUp x => do return !(← isDown keys (← reg s x.val))

/-- The address of the sprite of the digit that the low half of a value names. -/
def digitAddress (value : UInt8) : Option UInt16 := do
  add (UInt16.ofNat Font.start) (← mul (value &&& 0xF).toUInt16 (UInt16.ofNat Font.height))

/-- The state that follows `s` under an instruction. -/
def execute (ins : Instruction) (s : State) (keys : Keypad) (noise : UInt8) : Checked State :=
  match ins with
  | .native _ => advance s 2
  | .data _ => advance s 2
  | .clear => do
    let next ← advance s 2
    return { next with frame := .blank, drawn := true }
  | .ret => do
    let (pc, stack) ← pop s.stack
    return { s with pc, stack }
  | .jump address => return { s with pc := address }
  | .call address => do
    let stack ← push s.stack (← add s.pc 2)
    return { s with pc := address, stack }
  | .skip condition => do
    if ← holds s keys condition then advance s 4 else advance s 2
  | .setByte x byte => do
    advance (← setReg s x.val byte) 2
  | .addByte x byte => do
    advance (← setReg s x.val ((← reg s x.val) + byte)) 2
  | .combine how x y => do
    let result := how.apply (← reg s x.val) (← reg s y.val)
    let next ← setReg s x.val result.1
    match result.2 with
    | none => advance next 2
    | some flag => advance (← setReg next 0xF flag) 2
  | .shift direction x => do
    let result := direction.apply (← reg s x.val)
    advance (← setReg (← setReg s x.val result.1) 0xF result.2) 2
  | .setIndex address => do
    let next ← advance s 2
    return { next with i := address }
  | .jumpOffset address => do
    return { s with pc := ← add address (← reg s 0).toUInt16 }
  | .random x mask => do
    advance (← setReg s x.val (noise &&& mask)) 2
  | .draw x y height => do
    let sprite ← read s.memory s.i height.toUInt64
    let drawing ← plotRows ⟨s.frame, 0⟩ (← reg s y.val).toNat (← reg s x.val).toNat sprite
    let next ← advance (← setReg s 0xF drawing.collision) 2
    return { next with frame := drawing.frame, drawn := true }
  | .getDelay x => do
    advance (← setReg s x.val s.delay) 2
  | .awaitKey x =>
    match keys.lowest? with
    | some key => do advance (← setReg s x.val (UInt8.ofNat key.val)) 2
    | none => return s
  | .setDelay x => do
    let next ← advance s 2
    return { next with delay := ← reg s x.val }
  | .setSound x => do
    let next ← advance s 2
    return { next with sound := ← reg s x.val }
  | .addIndex x => do
    let next ← advance s 2
    return { next with i := addToIndex s.i (← reg s x.val) }
  | .indexDigit x => do
    let next ← advance s 2
    return { next with i := ← digitAddress (← reg s x.val) }
  | .storeDecimal x => do
    let memory ← write s.memory s.i (decimalDigits (← reg s x.val))
    let next ← advance s 2
    return { next with memory }
  | .storeRegs x => do
    let memory ← write s.memory s.i (← regsUpTo s x.val)
    let next ← advance s 2
    return { next with memory }
  | .loadRegs x => do
    advance (← setRegsUpTo s x.val (← read s.memory s.i x.count.toUInt64)) 2

end Checked

end ChipEight
