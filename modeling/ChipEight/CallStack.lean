import ChipEight.Fault

/-!
# The call stack

Return addresses of the subroutines being executed, at most sixteen. The stack is an array of slots
and a depth; slots from the depth on are dead, and no operation lets their contents show. The view
`toList` lists the live addresses, oldest first.
-/

namespace ChipEight

/-- The greatest number of nested subroutine calls. -/
abbrev CallStack.capacity : Nat := 16

/-- Slots for return addresses, of which the first `depth` are live. -/
@[ext]
structure CallStack where
  slots : Vector UInt16 CallStack.capacity
  depth : Nat
  depth_le : depth ≤ CallStack.capacity
  deriving DecidableEq

namespace CallStack

/-- The stack outside of all subroutines. -/
def empty : CallStack := ⟨.replicate capacity 0, 0, by decide⟩

/-- The live return addresses, oldest first. -/
def toList (s : CallStack) : List UInt16 := s.slots.toList.take s.depth

/-- Put a return address on top, unless every slot is live. -/
def push (s : CallStack) (addr : UInt16) : Except Fault CallStack :=
  if h : s.depth < capacity then .ok ⟨s.slots.set s.depth addr h, s.depth + 1, h⟩
  else .error (.stackOverflow capacity)

/-- Take the newest return address off, unless no slot is live. -/
def pop : CallStack → Except Fault (UInt16 × CallStack)
  | ⟨_, 0, _⟩ => .error .stackUnderflow
  | ⟨slots, d + 1, h⟩ => .ok (slots[d], ⟨slots, d, Nat.le_of_succ_le h⟩)

/-- The view has as many entries as there are live slots. -/
theorem length_toList (s : CallStack) : s.toList.length = s.depth := by
  simp [toList, Nat.min_eq_left s.depth_le]

/-- Pushing fails exactly when every slot is live. -/
theorem push_eq_error_iff (s : CallStack) (addr : UInt16) (f : Fault) :
    s.push addr = .error f ↔ s.depth = capacity ∧ f = .stackOverflow capacity := by
  rw [push, Fault.dite_eq_error_iff, Nat.not_lt]
  exact and_congr_left fun _ ↦ ⟨Nat.le_antisymm s.depth_le, Nat.le_of_eq ∘ Eq.symm⟩

/-- Popping fails exactly when no slot is live. -/
theorem pop_eq_error_iff (s : CallStack) (f : Fault) :
    s.pop = .error f ↔ s.depth = 0 ∧ f = .stackUnderflow := by
  obtain ⟨slots, depth, hd⟩ := s
  cases depth with
  | zero =>
    rw [pop, Except.error.injEq]
    exact ⟨fun hf ↦ ⟨rfl, hf.symm⟩, fun hf ↦ hf.2.symm⟩
  | succ d => exact ⟨nofun, nofun⟩

/-- A pushed address becomes the newest live one. -/
theorem toList_of_push {s t : CallStack} {addr : UInt16} (h : s.push addr = .ok t) :
    t.toList = s.toList ++ [addr] := by
  unfold push at h
  split at h
  · next hd =>
    cases h
    have hl : s.depth < s.slots.toList.length := by simpa using hd
    simp only [toList, Vector.toList_set, List.take_add_one]
    rw [List.take_set, List.set_eq_of_length_le (List.length_take_le _ _),
      List.getElem?_set_self hl]
    rfl
  · cases h

/-- A popped address was the newest live one. -/
theorem toList_of_pop {s t : CallStack} {addr : UInt16} (h : s.pop = .ok (addr, t)) :
    s.toList = t.toList ++ [addr] := by
  obtain ⟨slots, depth, hd⟩ := s
  cases depth with
  | zero => cases h
  | succ d =>
    cases h
    simp only [toList]
    rw [List.take_add_one]
    have hl : d < slots.toList.length := by simpa using Nat.lt_of_succ_le hd
    simp [List.getElem?_eq_getElem hl]

end CallStack

end ChipEight
