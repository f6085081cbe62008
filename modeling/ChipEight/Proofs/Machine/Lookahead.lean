import ChipEight.Proofs.Machine.Halt
import ChipEight.Proofs.Machine.Stall

/-!
# Looking ahead

What a host can tell of a step before it is taken. The instruction at the program counter is the one
that a step would run, and looking at it fails only where the step must fail as well. A machine
waits for a key exactly if its step would run a wait without effect; that a halted machine does not
wait, although waiting is told without regard to the recorded fault, comes of the fault being the
one to which the state leads, while no wait leads to a fault.
-/

namespace ChipEight.Machine

variable {m : Machine} {fault : Fault}

/-- Looking at the instruction at the program counter fails exactly if its word ends past the end of
memory. -/
theorem currentInstruction_eq_error_iff (m : Machine) (fault : Fault) :
    m.currentInstruction = .error fault ↔
      4096 < m.state.pc.toNat + 2 ∧ fault = .memoryOutOfBounds (max m.state.pc.toNat 4096) := by
  refine Iff.trans ?_ (Memory.readWord_eq_error_iff m.state.memory m.state.pc fault)
  change m.state.fetch.map Instruction.decode = .error fault ↔ m.state.fetch = .error fault
  cases m.state.fetch with
  | error raised => exact ⟨fun h ↦ congrArg Except.error (Except.error.inj h), fun h ↦ h ▸ rfl⟩
  | ok w => exact ⟨nofun, nofun⟩

private theorem attempt_of_currentInstruction_eq_error (h : m.currentInstruction = .error fault)
    (noise : UInt8) : m.attempt noise = .error fault := by
  rw [attempt, h]
  rfl

private theorem isAwaitingKey_iff (m : Machine) :
    m.isAwaitingKey = true ↔
      ∃ x, m.currentInstruction = .ok (.awaitKey x) ∧ m.keys.lowest? = none := by
  unfold isAwaitingKey
  split
  · next x hc =>
    rw [Option.isNone_iff_eq_none]
    exact ⟨fun h ↦ ⟨x, hc, h⟩, fun ⟨_, _, h⟩ ↦ h⟩
  · next hn => exact ⟨nofun, fun ⟨x, hc, _⟩ ↦ absurd hc (hn x)⟩

private theorem Truthful.isAwaitingKey_eq_false (h : m.Truthful) (hf : m.fault = some fault) :
    m.isAwaitingKey = false := by
  rw [Bool.eq_false_iff]
  intro hw
  obtain ⟨x, hc, -⟩ := m.isAwaitingKey_iff.mp hw
  have hleads : m.state.fault? = none := fault?_of_currentInstruction hc
  cases hleads.symm.trans (h fault hf)

private theorem isAwaitingKey_iff_step (hf : m.fault = none) (noise : UInt8) :
    m.isAwaitingKey = true ↔
      ∃ x, (m.step noise).1 = .ok (.awaitKey x) ∧ (m.step noise).2.state = m.state := by
  refine m.isAwaitingKey_iff.trans (exists_congr fun x ↦ ?_)
  constructor
  · rintro ⟨hc, hk⟩
    rw [step_of_stalls hf hc hk]
    exact ⟨rfl, rfl⟩
  · rintro ⟨hran, hsame⟩
    obtain ⟨-, hc, next, he, hs⟩ := exists_execute_of_step hran
    rw [hs, state_advanceTo] at hsame
    exact ⟨hc, (Instruction.eq_self_iff_stalls he).mp hsame⟩

/-- Looking ahead agrees with stepping, whatever was done to a machine after power-up. If it is not
halted, then an instruction that a step runs is the one seen ahead, and looking ahead fails exactly
if the word at the program counter ends past the end of memory, with the fault that a step then
raises. The machine waits for a key exactly if it is not halted and a step runs a wait that leaves
the state as it is; so once it is halted it does not, whatever keys go down or up. -/
theorem lookahead_agrees (commands : List Command) (noise : UInt8) :
    let m := powerUp.after commands
    (m.fault = none →
      (∀ ins, (m.step noise).1 = .ok ins → m.currentInstruction = .ok ins) ∧
      (∀ fault, m.currentInstruction = .error fault ↔
        4096 < m.state.pc.toNat + 2 ∧ fault = .memoryOutOfBounds (max m.state.pc.toNat 4096)) ∧
      (∀ fault, m.currentInstruction = .error fault → (m.step noise).1 = .error fault)) ∧
    (m.isAwaitingKey = true ↔ m.fault = none ∧
      ∃ x, (m.step noise).1 = .ok (.awaitKey x) ∧ (m.step noise).2.state = m.state) ∧
    (∀ fault, m.fault = some fault → ∀ keys, { m with keys }.isAwaitingKey = false) := by
  intro m
  have htruthful : m.Truthful := truthful_after commands
  refine ⟨?_, ?_, ?_⟩
  · intro hf
    refine ⟨?_, m.currentInstruction_eq_error_iff, ?_⟩
    · intro ins hran
      exact (exists_execute_of_step hran).2.1
    · intro fault hc
      have ha := attempt_of_currentInstruction_eq_error hc noise
      exact congrArg Prod.fst (step_of_attempt_eq_error hf ha)
  · cases hf : m.fault with
    | some fault =>
      rw [htruthful.isAwaitingKey_eq_false hf]
      exact ⟨nofun, nofun⟩
    | none => exact (isAwaitingKey_iff_step hf noise).trans (and_iff_right rfl).symm
  · intro fault hf keys
    exact Truthful.isAwaitingKey_eq_false (m := { m with keys }) htruthful hf

end ChipEight.Machine
