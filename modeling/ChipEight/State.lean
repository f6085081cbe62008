import ChipEight.CallStack
import ChipEight.Frame
import ChipEight.Memory

/-!
# Machine states

Everything a program can see or change, except the keys: registers, index, program counter, timers,
call stack, memory and picture. Instructions map states to states, so one that fails leaves nothing
half done. The last register doubles as the flag for carry, borrow, bits shifted out and collisions.
-/

namespace ChipEight

/-- One of the sixteen registers `V0` to `VF`. -/
abbrev Register := Fin 16

/-- The register that receives flags. -/
def Register.flag : Register := ⟨15, by decide⟩

/-- The register that offsets jumps. -/
def Register.offset : Register := ⟨0, by decide⟩

/-- The number of registers up to and including one. -/
def Register.count (x : Register) : UInt8 := UInt8.ofNat (x.val + 1)

/-- The registers up to and including one are as many as its number and one more. -/
theorem Register.toNat_count (x : Register) : x.count.toNat = x.val + 1 := by
  have hx : x.val + 1 < UInt8.size := Nat.lt_of_le_of_lt x.isLt (by decide)
  exact UInt8.toNat_ofNat_of_lt hx

/-- A snapshot of everything but the keys. The field `drawn` tells that the picture has been drawn
on since it was last taken for display. -/
@[ext]
structure State where
  pc : UInt16
  v : Vector UInt8 16
  i : UInt16
  delay : UInt8
  sound : UInt8
  stack : CallStack
  memory : Memory
  frame : Frame
  drawn : Bool
  deriving DecidableEq

namespace State

/-- The state in which nothing has been loaded or run. -/
def initial : State where
  pc := UInt16.ofNat Memory.programStart
  v := .replicate 16 0
  i := 0
  delay := 0
  sound := 0
  stack := .empty
  memory := .initial
  frame := .blank
  drawn := false

/-- The initial state with a program in memory; it faults where the program leaves memory. -/
def ofRom (rom : List UInt8) : Except Fault State := do
  let memory ← initial.memory.write initial.pc rom
  return { initial with memory }

/-- The value of a register. -/
def reg (s : State) (x : Register) : UInt8 := s.v[x]

/-- The state with one register changed. -/
def setReg (s : State) (x : Register) (value : UInt8) : State :=
  { s with v := s.v.set x.val value }

/-- The state with the flag register changed, if there is a flag to store. -/
def setFlag (s : State) : Option UInt8 → State
  | none => s
  | some flag => s.setReg .flag flag

/-- The values of the registers up to and including `x`. -/
def regsUpTo (s : State) (x : Register) : List UInt8 := s.v.toList.take (x.val + 1)

/-- The state whose first registers hold the given values, the others being kept. -/
def setRegs (s : State) (values : List UInt8) : State :=
  { s with v := Vector.ofFn fun x ↦ (values[x.val]?).getD s.v[x] }

/-- The state with the program counter past the current instruction. -/
def advance (s : State) : State := { s with pc := s.pc + 2 }

/-- The word that the program counter points at. -/
def fetch (s : State) : Except Fault Word := s.memory.readWord s.pc

/-- The state after one period of the timers: each counts down to zero and stays there. -/
def tick (s : State) : State :=
  { s with
    delay := if s.delay = 0 then 0 else s.delay - 1
    sound := if s.sound = 0 then 0 else s.sound - 1 }

/-- Counting down takes one from a timer, or nothing at zero. -/
theorem toNat_countdown (timer : UInt8) :
    (if timer = 0 then 0 else timer - 1).toNat = timer.toNat - 1 := by
  split
  · next hz =>
    rw [hz]
    rfl
  · next hn =>
    have hpos : timer.toNat ≠ 0 := fun hz ↦ hn (UInt8.toNat_inj.mp hz)
    have hone : (1 : UInt8) ≤ timer := UInt8.le_iff_toNat_le.mpr (Nat.pos_of_ne_zero hpos)
    exact UInt8.toNat_sub_of_le _ _ hone

/-- Setting a flag changes nothing but registers. -/
theorem setFlag_eq (s : State) (flag : Option UInt8) :
    s.setFlag flag = { s with v := (s.setFlag flag).v } := by
  cases flag <;> rfl

/-- The registers up to and including `x` are as many as its number and one more. -/
theorem length_regsUpTo (s : State) (x : Register) : (s.regsUpTo x).length = x.val + 1 := by
  have := x.isLt
  rw [regsUpTo, List.length_take, Vector.length_toList]
  omega

/-- Changing a register leaves the program counter in place. -/
theorem pc_setReg (s : State) (x : Register) (value : UInt8) : (s.setReg x value).pc = s.pc := rfl

/-- Loading registers leaves the program counter in place. -/
theorem pc_setRegs (s : State) (values : List UInt8) : (s.setRegs values).pc = s.pc := by
  rw [setRegs]

/-- Going on to the next word leaves the index in place. -/
theorem i_advance (s : State) : s.advance.i = s.i := by rw [advance]

/-- Loading registers leaves the index in place. -/
theorem i_setRegs (s : State) (values : List UInt8) : (s.setRegs values).i = s.i := by
  rw [setRegs]

/-- Loading registers leaves memory as it is. -/
theorem memory_setRegs (s : State) (values : List UInt8) :
    (s.setRegs values).memory = s.memory := by
  rw [setRegs]

/-- Going on to the next word leaves memory as it is. -/
theorem memory_advance (s : State) : s.advance.memory = s.memory := by rw [advance]

/-- Going on to the next word leaves the registers as they are. -/
theorem reg_advance (s : State) (x : Register) : s.advance.reg x = s.reg x := by
  rw [advance, reg, reg]

/-- Changing a register changes that register only. -/
theorem reg_setReg (s : State) (x y : Register) (value : UInt8) :
    (s.setReg x value).reg y = if x = y then value else s.reg y := by
  simp [reg, setReg, Vector.getElem_set, Fin.ext_iff]

/-- Loading registers sets as many as there are values. -/
theorem reg_setRegs (s : State) (values : List UInt8) (x : Register) :
    (s.setRegs values).reg x = (values[x.val]?).getD (s.reg x) := by
  simp [reg, setRegs]

/-- The registers up to and including `x` are listed at their numbers. -/
theorem getElem?_regsUpTo (s : State) (x r : Register) :
    (s.regsUpTo x)[r.val]? = if r ≤ x then some (s.reg r) else none := by
  rw [regsUpTo, List.getElem?_take]
  by_cases h : r ≤ x
  · rw [if_pos (Nat.lt_succ_of_le h), if_pos h]
    simp [reg]
  · rw [if_neg (fun hlt ↦ h (Nat.le_of_lt_succ hlt)), if_neg h]

/-- Registers loaded with the values of others up to one of them. -/
theorem reg_setRegs_regsUpTo (s t : State) (x r : Register) :
    (t.setRegs (s.regsUpTo x)).reg r = if r ≤ x then s.reg r else t.reg r := by
  rw [reg_setRegs, getElem?_regsUpTo]
  split <;> rfl

/-- The registers up to and including `x` are those that were loaded, if there was a value for each
of them and none for another. -/
theorem regsUpTo_setRegs (s : State) {x : Register} {values : List UInt8}
    (h : values.length = x.val + 1) : (s.setRegs values).regsUpTo x = values := by
  apply List.ext_getElem?
  intro k
  by_cases hk : k < x.val + 1
  · have hr : k < 16 := by omega
    have hle : (⟨k, hr⟩ : Register) ≤ x := Nat.le_of_lt_succ hk
    rw [(s.setRegs values).getElem?_regsUpTo x ⟨k, hr⟩, if_pos hle, reg_setRegs,
      List.getElem?_eq_getElem (by omega)]
    rfl
  · rw [List.getElem?_eq_none (by rw [length_regsUpTo]; omega),
      List.getElem?_eq_none (by omega)]

end State

end ChipEight
