import ChipEight.Proofs.Instruction.Failure
import ChipEight.Proofs.Machine.Transition

/-!
# Halted machines

A recorded fault is always the one to which the present state leads: running the instruction at the
program counter again would raise it again, whatever keys are down. It stays recorded until a
program is loaded or an earlier state is brought back, and till then every step quotes it and
nothing changes but the keys and whether the picture was taken.
-/

namespace ChipEight.Machine

/-- The recorded fault, if there is one, is that to which the present state leads. -/
def Truthful (m : Machine) : Prop := ∀ fault, m.fault = some fault → m.state.fault? = some fault

/-- The second machine is the first but for its keys and for whether its picture was taken. -/
def FrozenTo (m later : Machine) : Prop :=
  ∃ keys drawn, later = { m with state := { m.state with drawn }, keys }

/-! ### Faults come from the state -/

/-- Running the instruction at the program counter fails exactly with the fault to which the state
leads. -/
theorem attempt_eq_error_iff (m : Machine) (noise : UInt8) (fault : Fault) :
    m.attempt noise = .error fault ↔ m.state.fault? = some fault := by
  unfold attempt currentInstruction State.fault?
  cases m.state.fetch with
  | error raised =>
    change Except.error raised = .error fault ↔ some raised = some fault
    rw [Except.error.injEq, Option.some.injEq]
  | ok w =>
    exact (Fault.bind_eq_error_iff fun _ ↦ ⟨_, rfl⟩).trans (Instruction.execute_eq_error_iff ..)

/-- A state leads to the fault of the instruction at its program counter. -/
theorem fault?_of_currentInstruction {m : Machine} {ins : Instruction}
    (h : m.currentInstruction = .ok ins) : m.state.fault? = ins.fault? m.state := by
  unfold currentInstruction at h
  unfold State.fault?
  cases hw : m.state.fetch with
  | error fault =>
    rw [hw] at h
    cases h
  | ok w =>
    rw [hw] at h
    cases h
    rfl

private theorem truthful_of_fault_eq_none {m : Machine} (h : m.fault = none) : m.Truthful := by
  intro fault hf
  rw [h] at hf
  cases hf

/-- Every transition keeps the recorded fault that of the state. -/
theorem Truthful.transition {m next : Machine} {e : Exchange} (h : m.Truthful)
    (ht : m.Transition e next) : next.Truthful := by
  cases ht with
  | restart memory hr => exact truthful_of_fault_eq_none rfl
  | run hf hc he => exact truthful_of_fault_eq_none ((m.fault_advanceTo _).trans hf)
  | raise hf ha =>
    intro recorded hr
    cases hr
    exact (m.attempt_eq_error_iff ..).mp ha
  | tick hf => exact truthful_of_fault_eq_none hf
  | rest hf => exact h
  | press keys => exact h
  | release keys => exact h
  | take hd => exact h
  | restore hh => exact truthful_of_fault_eq_none rfl
  | refuse hn hr => exact h

/-- Whatever is done to a machine after power-up, its recorded fault is that of its state. -/
theorem truthful_after (commands : List Command) : (powerUp.after commands).Truthful :=
  after_preserves (truthful_of_fault_eq_none rfl)
    fun c _ m h ↦ h.transition (m.transition_perform c)

/-! ### Halted machines stay as they are -/

private theorem FrozenTo.refl (m : Machine) : m.FrozenTo m := ⟨m.keys, m.state.drawn, rfl⟩

private theorem FrozenTo.trans {a b c : Machine} (hab : a.FrozenTo b) (hbc : b.FrozenTo c) :
    a.FrozenTo c := by
  obtain ⟨keys, drawn, rfl⟩ := hab
  obtain ⟨keys', drawn', rfl⟩ := hbc
  exact ⟨keys', drawn', rfl⟩

private theorem FrozenTo.fault_eq {m later : Machine} (h : m.FrozenTo later) :
    later.fault = m.fault := by
  obtain ⟨keys, drawn, rfl⟩ := h
  rfl

private theorem answer_step_of_fault {m : Machine} {fault : Fault} (h : m.fault = some fault)
    (noise : UInt8) : (m.perform (.step noise)).1 = .failed (.halted fault) := by
  simp only [perform, step_of_fault h]

/-- A halted machine stays frozen in every transition, unless that begins anew or brings an earlier
state back. -/
theorem frozenTo_of_transition {m next : Machine} {e : Exchange} {fault : Fault}
    (h : m.fault = some fault) (ht : m.Transition e next) (hn : e.restarts = false)
    (hb : e.restores = false) : m.FrozenTo next := by
  cases ht with
  | restart memory hr =>
    rw [hn] at hr
    cases hr
  | run hf hc he =>
    rw [h] at hf
    cases hf
  | raise hf ha =>
    rw [h] at hf
    cases hf
  | tick hf =>
    rw [h] at hf
    cases hf
  | rest hf => exact .refl m
  | press keys => exact ⟨keys, m.state.drawn, rfl⟩
  | release keys => exact ⟨keys, m.state.drawn, rfl⟩
  | take hd => exact ⟨m.keys, false, rfl⟩
  | restore hh => cases hb
  | refuse hn hr => exact .refl m

/-- A halted machine stays frozen, and its steps quote its fault, as long as no operation begins
anew or brings an earlier state back. -/
theorem frozenTo_after {m : Machine} {fault : Fault} (h : m.fault = some fault)
    {commands : List Command}
    (hc : ∀ e ∈ m.transcript commands, e.restarts = false ∧ e.restores = false) :
    m.FrozenTo (m.after commands) ∧
      ∀ e ∈ m.transcript commands, ∀ noise, e.command = .step noise →
        e.answer = .failed (.halted fault) := by
  induction commands generalizing m with
  | nil => exact ⟨.refl m, fun e he ↦ absurd he List.not_mem_nil⟩
  | cons c rest ih =>
    obtain ⟨⟨hn, hb⟩, hrest⟩ := List.forall_mem_cons.mp hc
    have hfirst := frozenTo_of_transition h (m.transition_perform c) hn hb
    obtain ⟨hlater, hanswers⟩ := ih (hfirst.fault_eq.trans h) hrest
    refine ⟨hfirst.trans hlater, List.forall_mem_cons.mpr ⟨?_, hanswers⟩⟩
    rintro noise rfl
    exact answer_step_of_fault h noise

/-- A fault latches and stays truthful. If a machine has recorded a fault, whatever was done to it
after power-up, then that is a fault of running an instruction, and running the one at the program
counter again would raise it again, whatever keys are down. As long as no operation begins anew or
brings an earlier state back, every step quotes the fault, it stays recorded, and nothing changes
but the keys and whether the picture was taken. -/
theorem fault_latches (before commands : List Command) {fault : Fault}
    (h : (powerUp.after before).fault = some fault)
    (hc : ∀ e ∈ (powerUp.after before).transcript commands,
      e.restarts = false ∧ e.restores = false) :
    let m := powerUp.after before
    fault.arisesInRun = true ∧
      (∀ keys noise, { m with keys }.attempt noise = .error fault) ∧
      (∀ e ∈ m.transcript commands, ∀ noise, e.command = .step noise →
        e.answer = .failed (.halted fault)) ∧
      (m.after commands).fault = some fault ∧ m.FrozenTo (m.after commands) := by
  intro m
  have hs : m.state.fault? = some fault := truthful_after before fault h
  obtain ⟨hfrozen, hanswers⟩ := frozenTo_after h hc
  refine ⟨State.arisesInRun_of_fault? hs, ?_, hanswers, hfrozen.fault_eq.trans h, hfrozen⟩
  intro keys noise
  exact (attempt_eq_error_iff { m with keys } noise fault).mpr hs

/-- A program that returns from no subroutine halts at once, and the machine then refuses a program
that is too long and has no state to go back to. -/
theorem fault_latches_of_lone_return :
    let m := powerUp.after [.load [0x00, 0xEE], .press 3, .step 0]
    let commands :=
      [.tick, .step 7, .load (.replicate 3585 0), .release 3, .rewind, .takeFrame, .step 0]
    m.fault = some .stackUnderflow ∧
      (∀ e ∈ m.transcript commands, e.restarts = false ∧ e.restores = false) ∧
      (∀ keys noise, { m with keys }.attempt noise = .error .stackUnderflow) ∧
      (m.after commands).fault = some .stackUnderflow ∧ m.FrozenTo (m.after commands) := by
  intro m commands
  have h : m.fault = some .stackUnderflow := by decide +kernel +zetaReduce
  have hc : ∀ e ∈ m.transcript commands, e.restarts = false ∧ e.restores = false := by
    decide +kernel +zetaReduce
  obtain ⟨-, ha, -, hf, hm⟩ := fault_latches [.load [0x00, 0xEE], .press 3, .step 0] commands h hc
  exact ⟨h, hc, ha, hf, hm⟩

end ChipEight.Machine
