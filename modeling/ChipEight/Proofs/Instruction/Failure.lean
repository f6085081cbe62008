import ChipEight.Instruction.Decode
import ChipEight.Instruction.Execute

/-!
# Failing instructions

When an instruction fails and with which fault: a return fails on an empty stack, a call on a full
one, and an instruction that reads or writes from the index on fails where that leaves memory. No
other instruction fails, and neither the keys nor the byte drawn have a part in it.
-/

namespace ChipEight

/-- Whether a fault can come of running an instruction, and so halt the machine. -/
def Fault.arisesInRun : Fault → Bool
  | .memoryOutOfBounds _ | .stackOverflow _ | .stackUnderflow => true
  | .romTooLarge .. | .invalidKey _ | .halted _ => false

namespace Memory

/-- The fault of an access to `len` bytes from `addr` on, if it leaves memory. -/
def accessFault? (addr : UInt16) (len : Nat) : Option Fault :=
  if size < addr.toNat + len then some (outOfBounds addr) else none

/-- An access faults exactly if it ends past the end of memory. -/
theorem accessFault?_eq_some_iff (addr : UInt16) (len : Nat) (fault : Fault) :
    accessFault? addr len = some fault ↔ size < addr.toNat + len ∧ fault = outOfBounds addr := by
  rw [accessFault?, Option.ite_none_right_eq_some, Option.some.injEq]
  exact and_congr_right fun _ ↦ eq_comm

private theorem arisesInRun_of_accessFault? {addr : UInt16} {len : Nat} {fault : Fault}
    (h : accessFault? addr len = some fault) : fault.arisesInRun = true := by
  obtain ⟨-, rfl⟩ := (accessFault?_eq_some_iff ..).mp h
  rfl

end Memory

namespace Instruction

/-- The fault that an instruction raises in a state, if it raises one. -/
def fault? (s : State) : Instruction → Option Fault
  | .ret => if s.stack.depth = 0 then some .stackUnderflow else none
  | .call _ =>
    if s.stack.depth = CallStack.capacity then some (.stackOverflow CallStack.capacity) else none
  | .draw _ _ height => Memory.accessFault? s.i height.toNat
  | .storeDecimal _ => Memory.accessFault? s.i 3
  | .storeRegs x => Memory.accessFault? s.i (x.val + 1)
  | .loadRegs x => Memory.accessFault? s.i (x.val + 1)
  | _ => none

/-- Execution fails exactly with the fault that the instruction raises in the state. -/
theorem execute_eq_error_iff (ins : Instruction) (s : State) (keys : Keypad) (noise : UInt8)
    (fault : Fault) :
    ins.execute s keys noise = .error fault ↔ ins.fault? s = some fault := by
  cases ins with
  | ret =>
    refine (Fault.bind_eq_error_iff fun _ ↦ ⟨_, rfl⟩).trans ?_
    rw [CallStack.pop_eq_error_iff, fault?, Option.ite_none_right_eq_some, Option.some.injEq]
    exact and_congr_right fun _ ↦ eq_comm
  | call address =>
    refine (Fault.bind_eq_error_iff fun _ ↦ ⟨_, rfl⟩).trans ?_
    rw [CallStack.push_eq_error_iff, fault?, Option.ite_none_right_eq_some, Option.some.injEq]
    exact and_congr_right fun _ ↦ eq_comm
  | draw x y height =>
    refine (Fault.bind_eq_error_iff fun _ ↦ ⟨_, rfl⟩).trans ?_
    rw [Memory.readShort_eq_error_iff, fault?, Memory.accessFault?_eq_some_iff]
  | storeDecimal x =>
    refine (Fault.bind_eq_error_iff fun _ ↦ ⟨_, rfl⟩).trans ?_
    rw [Memory.write_eq_error_iff, fault?, Memory.accessFault?_eq_some_iff]
    rfl
  | storeRegs x =>
    refine (Fault.bind_eq_error_iff fun _ ↦ ⟨_, rfl⟩).trans ?_
    rw [Memory.write_eq_error_iff, fault?, Memory.accessFault?_eq_some_iff, State.length_regsUpTo]
  | loadRegs x =>
    refine (Fault.bind_eq_error_iff fun _ ↦ ⟨_, rfl⟩).trans ?_
    rw [Memory.readShort_eq_error_iff, fault?, Memory.accessFault?_eq_some_iff, x.toNat_count]
  | awaitKey x =>
    rw [execute]
    cases keys.lowest? <;> exact ⟨nofun, nofun⟩
  | _ => exact ⟨nofun, nofun⟩

/-- The faults that instructions raise can halt a machine. -/
theorem arisesInRun_of_fault? {ins : Instruction} {s : State} {fault : Fault}
    (h : ins.fault? s = some fault) : fault.arisesInRun = true := by
  cases ins with
  | ret =>
    obtain ⟨-, hf⟩ := Option.ite_none_right_eq_some.mp h
    cases hf
    rfl
  | call address =>
    obtain ⟨-, hf⟩ := Option.ite_none_right_eq_some.mp h
    cases hf
    rfl
  | draw x y height => exact Memory.arisesInRun_of_accessFault? h
  | storeDecimal x => exact Memory.arisesInRun_of_accessFault? h
  | storeRegs x => exact Memory.arisesInRun_of_accessFault? h
  | loadRegs x => exact Memory.arisesInRun_of_accessFault? h
  | _ => cases h

end Instruction

namespace State

/-- The fault that a state leads to: its program counter has left memory, or the instruction there
raises one. -/
def fault? (s : State) : Option Fault :=
  match s.fetch with
  | .error fault => some fault
  | .ok w => (Instruction.decode w).fault? s

/-- The faults that states lead to can halt a machine. -/
theorem arisesInRun_of_fault? {s : State} {fault : Fault} (h : s.fault? = some fault) :
    fault.arisesInRun = true := by
  unfold fault? at h
  split at h
  · next raised hw =>
    cases h
    obtain ⟨-, rfl⟩ := (Memory.readWord_eq_error_iff ..).mp hw
    rfl
  · exact Instruction.arisesInRun_of_fault? h

end State

end ChipEight
