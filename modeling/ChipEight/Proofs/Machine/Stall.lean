import ChipEight.Machine.Command
import ChipEight.Proofs.Instruction.Effect

/-!
# Stalled machines

A machine is stalled if no step has an effect on it, whatever the step draws. That is so if it is
halted, and if it is about to run an instruction that stalls: a jump to itself or an unanswered wait
for a key. Neither kind of stall depends on the timers, so only a key can end one. A step that
leaves the state as it is leaves the machine stalled, which is why a host may stop there.
-/

namespace ChipEight.Machine

/-- No step changes the machine. -/
def Stalled (m : Machine) : Prop := ∀ noise, (m.step noise).2 = m

/-- A halted machine is stalled. -/
theorem stalled_of_fault {m : Machine} {fault : Fault} (h : m.fault = some fault) : m.Stalled := by
  intro noise
  rw [step_of_fault h]

/-- The step of a machine that is about to run an instruction that stalls runs it and changes
nothing. -/
theorem step_of_stalls {m : Machine} {ins : Instruction} (hf : m.fault = none)
    (hc : m.currentInstruction = .ok ins) (hs : ins.Stalls m.state m.keys) (noise : UInt8) :
    m.step noise = (.ok ins, m) := by
  rw [step_of_execute hf hc ((ins.execute_eq_self_iff m.state m.keys noise).mpr hs),
    m.advanceTo_self]

/-- A machine about to run an instruction that stalls is stalled. -/
theorem stalled_of_stalls {m : Machine} {ins : Instruction} (hc : m.currentInstruction = .ok ins)
    (hs : ins.Stalls m.state m.keys) : m.Stalled := by
  intro noise
  cases hf : m.fault with
  | some fault => exact stalled_of_fault hf noise
  | none => rw [step_of_stalls hf hc hs]

/-- A machine is stalled exactly when it is halted or about to run an instruction that stalls. -/
theorem stalled_iff (m : Machine) : m.Stalled ↔
    m.fault ≠ none ∨ ∃ ins, m.currentInstruction = .ok ins ∧ ins.Stalls m.state m.keys := by
  constructor
  · intro h
    -- The byte drawn does not matter: one step without effect tells the kind of stall.
    have h0 := h 0
    rcases m.step_cases 0 with ⟨fault, hf, hs⟩ | ⟨fault, hf, ha, hs⟩ | ⟨ins, next, hf, hc, he, hs⟩
    · exact .inl (by rw [hf]; exact Option.some_ne_none fault)
    · rw [hs] at h0
      have hn := congrArg Machine.fault h0
      rw [hf] at hn
      cases hn
    · rw [hs] at h0
      have hn := congrArg Machine.state h0
      rw [state_advanceTo] at hn
      exact .inr ⟨ins, hc, (Instruction.effect_of_execute he).stalls hn⟩
  · rintro (h | ⟨ins, hc, hs⟩)
    · obtain ⟨fault, hf⟩ := Option.ne_none_iff_exists'.mp h
      exact stalled_of_fault hf
    · exact stalled_of_stalls hc hs

/-- A step that leaves the state as it is leaves the machine stalled. -/
theorem stalled_step {m : Machine} {noise : UInt8} (h : (m.step noise).2.state = m.state) :
    (m.step noise).2.Stalled := by
  rcases m.step_cases noise with ⟨fault, hf, hs⟩ | ⟨fault, hf, ha, hs⟩ | ⟨ins, next, hf, hc, he, hs⟩
  · rw [hs]
    exact stalled_of_fault hf
  · rw [hs]
    exact stalled_of_fault rfl
  · rw [hs, state_advanceTo] at h
    subst h
    rw [hs, advanceTo_self]
    exact stalled_of_stalls hc ((ins.execute_eq_self_iff ..).mp he)

/-- A machine that waits for a key while none is down is stalled. -/
theorem stalled_of_isAwaitingKey {m : Machine} (h : m.isAwaitingKey = true) : m.Stalled := by
  unfold isAwaitingKey at h
  split at h
  · next x hc => exact stalled_of_stalls hc (Option.isNone_iff_eq_none.mp h)
  · cases h

/-- A machine whose step runs a jump to its own address is stalled. -/
theorem stalled_of_jump {m next : Machine} {noise : UInt8}
    (h : m.step noise = (.ok (.jump m.state.pc), next)) : m.Stalled := by
  obtain ⟨-, hc, -⟩ := exists_execute_of_step (congrArg Prod.fst h)
  exact stalled_of_stalls hc rfl

/-- A step that fails leaves the machine halted. -/
theorem fault_of_step_eq_error {m halted : Machine} {noise : UInt8} {fault : Fault}
    (h : m.step noise = (.error fault, halted)) : ∃ recorded, halted.fault = some recorded := by
  rcases m.step_cases noise with ⟨f, hf, hs⟩ | ⟨f, hf, ha, hs⟩ | ⟨ins, after, hf, hc, he, hs⟩
  · rw [hs] at h
    cases h
    exact ⟨f, hf⟩
  · rw [hs] at h
    cases h
    exact ⟨fault, rfl⟩
  · rw [hs] at h
    cases h

/-- A tick leaves a stalled machine stalled. -/
theorem Stalled.tick {m : Machine} (h : m.Stalled) : m.tick.Stalled := by
  unfold Machine.tick
  split
  · exact h
  · next hf =>
    rcases m.stalled_iff.mp h with hn | ⟨ins, hc, hs⟩
    · exact absurd hf hn
    · exact stalled_of_stalls hc ((ins.stalls_tick ..).mpr hs)

end ChipEight.Machine
