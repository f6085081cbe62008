import ChipEight.Text.Numeral

/-!
# Faults

What can go wrong while a program is loaded or run, and the sentence that reports it. An oversized
program and an invalid key are reported to the caller and leave the machine as it was; the others
stop the machine, which from then on answers with the fault that halted it.
-/

namespace ChipEight

/-- The causes for which loading, running or key input fails. -/
inductive Fault where
  | romTooLarge (size capacity : Nat)
  | memoryOutOfBounds (address : Nat)
  | stackOverflow (depth : Nat)
  | stackUnderflow
  | invalidKey (code : UInt8)
  | halted (cause : Fault)
  deriving DecidableEq

/-- The sentence that reports a fault; a halted machine quotes what halted it. -/
def Fault.message : Fault → String
  | .romTooLarge size capacity =>
    "ROM is too large (" ++ Numeral.decimal size ++ " bytes), max size is "
      ++ Numeral.decimal capacity ++ " bytes"
  | .memoryOutOfBounds address =>
    "memory access out of bounds at address " ++ Numeral.hexMarked 4 address
  | .stackOverflow depth =>
    "stack overflow: more than " ++ Numeral.decimal depth ++ " nested subroutine calls"
  | .stackUnderflow => "stack underflow: returned from a subroutine with an empty call stack"
  | .invalidKey code =>
    "key " ++ Numeral.hexMarked 2 code.toNat ++ " is not on the keypad (expected 0x0..=0xF)"
  | .halted cause => "machine is halted: " ++ cause.message

/-- A halted machine quotes the message of the fault that halted it. -/
theorem Fault.message_halted (cause : Fault) :
    (halted cause).message = "machine is halted: " ++ cause.message := rfl

/-- An operation that succeeds under a condition fails exactly where the condition is not met. -/
theorem Fault.dite_eq_error_iff {α : Type} {p : Prop} [Decidable p] {result : p → α}
    {raised fault : Fault} :
    (if h : p then Except.ok (result h) else .error raised) = .error fault ↔
      ¬p ∧ fault = raised := by
  split
  · next h => exact ⟨nofun, fun hf ↦ absurd h hf.1⟩
  · next h =>
    rw [Except.error.injEq]
    exact ⟨fun hf ↦ ⟨h, hf.symm⟩, fun hf ↦ hf.2.symm⟩

/-- Where one operation after another succeeds, the first does, and with its result the second. -/
theorem Fault.ok_of_bind_eq_ok {α β : Type} {x : Except Fault α} {f : α → Except Fault β} {b : β}
    (h : x >>= f = .ok b) : ∃ a, x = .ok a ∧ f a = .ok b := by
  cases x with
  | error fault => cases h
  | ok a => exact ⟨a, rfl, h⟩

/-- An operation followed by one that always succeeds fails exactly as it would alone. -/
theorem Fault.bind_eq_error_iff {α β : Type} {x : Except Fault α} {f : α → Except Fault β}
    {fault : Fault} (hf : ∀ a, ∃ b, f a = .ok b) : x >>= f = .error fault ↔ x = .error fault := by
  cases x with
  | error raised =>
    change Except.error raised = .error fault ↔ _
    rw [Except.error.injEq, Except.error.injEq]
  | ok a =>
    obtain ⟨b, hb⟩ := hf a
    change f a = .error fault ↔ _
    rw [hb]
    exact ⟨nofun, nofun⟩

/-- An operation may be followed by either of two that agree in what is read off their results. -/
theorem Fault.map_bind_congr {α β γ : Type} {x : Except Fault α} {f g : α → Except Fault β}
    {read : β → γ} (h : ∀ a, (f a).map read = (g a).map read) :
    (x >>= f).map read = (x >>= g).map read := by
  cases x with
  | error fault => rfl
  | ok a => exact h a

end ChipEight
