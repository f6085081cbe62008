import ChipEight.Calls
import ChipEight.CallStack

/-!
# The call stack as a bounded list

The stack with its slots and its depth answers every sequence of calls as the list of its live
addresses does, with the newest at the end and at most sixteen in all. What is left in dead slots
therefore never shows: stacks with the same live addresses cannot be told apart.
-/

namespace ChipEight.CallStack

/-- A call on a stack. -/
inductive Call where
  | push (addr : UInt16)
  | pop
  deriving DecidableEq

/-- The answer of a stack to a call, which is the address taken off if one was, and the stack after
it. -/
def answer (s : CallStack) : Call → Except Fault (Option UInt16) × CallStack
  | .push addr => orStay s ((s.push addr).map fun next ↦ (none, next))
  | .pop => orStay s (s.pop.map fun (addr, next) ↦ (some addr, next))

/-- The answer of a list of at most sixteen addresses, of which the newest is the last, and the list
after it. -/
def listAnswer (live : List UInt16) : Call → Except Fault (Option UInt16) × List UInt16
  | .push addr =>
    if live.length = 16 then (.error (.stackOverflow 16), live) else (.ok none, live ++ [addr])
  | .pop =>
    match live.getLast? with
    | none => (.error .stackUnderflow, live)
    | some newest => (.ok (some newest), live.dropLast)

/-! ### One call -/

private theorem answer_push (s : CallStack) (addr : UInt16) :
    (s.answer (.push addr)).1 = (listAnswer s.toList (.push addr)).1 ∧
      (s.answer (.push addr)).2.toList = (listAnswer s.toList (.push addr)).2 := by
  have hfails := s.push_eq_error_iff addr
  rw [← s.length_toList] at hfails
  cases h : s.push addr with
  | error fault =>
    obtain ⟨hfull, rfl⟩ := (hfails fault).mp h
    simp only [answer, h, listAnswer, if_pos hfull]
    exact ⟨rfl, rfl⟩
  | ok next =>
    have hroom : s.toList.length ≠ 16 := by
      intro hfull
      cases h.symm.trans ((hfails _).mpr ⟨hfull, rfl⟩)
    simp only [answer, h, listAnswer, if_neg hroom]
    exact ⟨rfl, toList_of_push h⟩

private theorem answer_pop (s : CallStack) :
    (s.answer .pop).1 = (listAnswer s.toList .pop).1 ∧
      (s.answer .pop).2.toList = (listAnswer s.toList .pop).2 := by
  cases h : s.pop with
  | error fault =>
    obtain ⟨hempty, rfl⟩ := (s.pop_eq_error_iff fault).mp h
    have hnil : s.toList = [] := List.length_eq_zero_iff.mp (s.length_toList.trans hempty)
    simp only [answer, h, listAnswer, hnil]
    exact ⟨rfl, hnil⟩
  | ok popped =>
    obtain ⟨addr, next⟩ := popped
    simp only [answer, h, listAnswer, toList_of_pop h, List.getLast?_concat, List.dropLast_concat]
    exact ⟨rfl, rfl⟩

/-- Every call is answered as the list of live addresses does it. -/
theorem answer_agrees (s : CallStack) (call : Call) :
    (s.answer call).1 = (listAnswer s.toList call).1 ∧
      (s.answer call).2.toList = (listAnswer s.toList call).2 := by
  cases call with
  | push addr => exact s.answer_push addr
  | pop => exact s.answer_pop

/-! ### Failing calls -/

private theorem answer_of_error {s : CallStack} {call : Call} {fault : Fault}
    (h : (s.answer call).1 = .error fault) : (s.answer call).2 = s := by
  cases call <;> exact orStay_of_error h

private theorem answer_push_eq_error_iff (s : CallStack) (addr : UInt16) (fault : Fault) :
    (s.answer (.push addr)).1 = .error fault ↔
      s.toList.length = 16 ∧ fault = .stackOverflow 16 := by
  rw [(s.answer_push addr).1, listAnswer]
  split
  · next hfull => simp only [hfull, Except.error.injEq, true_and, eq_comm]
  · next hroom => exact ⟨nofun, fun ⟨hfull, _⟩ ↦ absurd hfull hroom⟩

private theorem answer_pop_eq_error_iff (s : CallStack) (fault : Fault) :
    (s.answer .pop).1 = .error fault ↔ s.toList = [] ∧ fault = .stackUnderflow := by
  rw [s.answer_pop.1, ← List.getLast?_eq_none_iff, listAnswer]
  cases s.toList.getLast? with
  | none => simp only [Except.error.injEq, true_and, eq_comm]
  | some newest => exact ⟨nofun, nofun⟩

private theorem answer_pop_of_concat {s : CallStack} {older : List UInt16} {newest : UInt16}
    (h : s.toList = older ++ [newest]) :
    (s.answer .pop).1 = .ok (some newest) ∧ (s.answer .pop).2.toList = older := by
  obtain ⟨hanswer, hlive⟩ := s.answer_pop
  simp only [listAnswer, h, List.getLast?_concat, List.dropLast_concat] at hanswer hlive
  exact ⟨hanswer, hlive⟩

/-! ### Calls in a row -/

/-- Calls in a row are answered as the list of live addresses does it. -/
theorem answerAll_toList (s : CallStack) (calls : List Call) :
    (answerAll answer s calls).1 = (answerAll listAnswer s.toList calls).1 ∧
      (answerAll answer s calls).2.toList = (answerAll listAnswer s.toList calls).2 := by
  have hcall : ∀ (s : CallStack) (live : List UInt16) (call : Call), s.toList = live →
      (s.answer call).1 = (listAnswer live call).1 ∧
        (s.answer call).2.toList = (listAnswer live call).2 := by
    rintro s _ call rfl
    exact s.answer_agrees call
  exact answerAll_agree (R := fun (s : CallStack) live ↦ s.toList = live) hcall rfl calls

/-- Stacks with the same live addresses answer alike and keep the same live addresses. -/
theorem answerAll_congr {s t : CallStack} (h : s.toList = t.toList) (calls : List Call) :
    (answerAll answer s calls).1 = (answerAll answer t calls).1 ∧
      (answerAll answer s calls).2.toList = (answerAll answer t calls).2.toList := by
  obtain ⟨hs, hslive⟩ := s.answerAll_toList calls
  obtain ⟨ht, htlive⟩ := t.answerAll_toList calls
  rw [h] at hs hslive
  exact ⟨hs.trans ht.symm, hslive.trans htlive.symm⟩

/-- The stack refines a bounded list that is last in, first out. Calls on the empty stack are
answered as the list answers them, and the depth is the length of that list, never above sixteen. A
push fails when sixteen addresses are live and a pop when none is, a call that fails changes
nothing, and a pop gives the newest address. Dead slots are never told from one another by calls. -/
theorem refines_bounded_list :
    (∀ calls : List Call,
      let reached := (answerAll answer empty calls).2
      let live := (answerAll listAnswer [] calls).2
      (answerAll answer empty calls).1 = (answerAll listAnswer [] calls).1 ∧
        reached.toList = live ∧ reached.depth = live.length ∧ live.length ≤ 16) ∧
    (∀ s : CallStack,
      (∀ addr fault, (s.answer (.push addr)).1 = .error fault ↔
        s.toList.length = 16 ∧ fault = .stackOverflow 16) ∧
      (∀ fault, (s.answer .pop).1 = .error fault ↔ s.toList = [] ∧ fault = .stackUnderflow) ∧
      (∀ call fault, (s.answer call).1 = .error fault → (s.answer call).2 = s) ∧
      (∀ older newest, s.toList = older ++ [newest] →
        (s.answer .pop).1 = .ok (some newest) ∧ (s.answer .pop).2.toList = older)) ∧
    (∀ s t : CallStack, s.toList = t.toList → ∀ calls : List Call,
      (answerAll answer s calls).1 = (answerAll answer t calls).1 ∧
        (answerAll answer s calls).2.toList = (answerAll answer t calls).2.toList) := by
  refine ⟨?_, ?_, fun _ _ hsame calls ↦ answerAll_congr hsame calls⟩
  · intro calls reached live
    obtain ⟨hanswers, hlive⟩ := empty.answerAll_toList calls
    have hdepth : reached.depth = live.length := by
      rw [← reached.length_toList]
      exact congrArg List.length hlive
    exact ⟨hanswers, hlive, hdepth, hdepth ▸ reached.depth_le⟩
  · intro s
    exact ⟨s.answer_push_eq_error_iff, s.answer_pop_eq_error_iff, fun _ _ ↦ answer_of_error,
      fun _ _ ↦ answer_pop_of_concat⟩

end ChipEight.CallStack
