import ChipEight.Proofs.Machine.Halt

/-!
# When a step fails

The conditions under which a machine that is not halted must fault, each with its fault: the word at
the program counter does not end within memory, or it is an instruction that lacks a return address,
a free slot of the stack, or memory behind the index. A step fails under exactly these, and a step
that fails does nothing else than record the fault.
-/

namespace ChipEight

/-- The instructions that must fail in a state, each with its fault. -/
inductive Instruction.Fails (s : State) : Instruction → Fault → Prop where
  /-- A return while no return address is live. -/
  | ret (h : s.stack.toList = []) : Fails s .ret .stackUnderflow
  /-- A call while sixteen return addresses are live. -/
  | call {address : UInt16} (h : s.stack.toList.length = 16) :
      Fails s (.call address) (.stackOverflow 16)
  /-- A sprite that ends past the end of memory. -/
  | draw {x y : Register} {height : UInt8} (h : 4096 < s.i.toNat + height.toNat) :
      Fails s (.draw x y height) (.memoryOutOfBounds (max s.i.toNat 4096))
  /-- Three digits that end past the end of memory. -/
  | storeDecimal {x : Register} (h : 4096 < s.i.toNat + 3) :
      Fails s (.storeDecimal x) (.memoryOutOfBounds (max s.i.toNat 4096))
  /-- Registers to store that end past the end of memory. -/
  | storeRegs {x : Register} (h : 4096 < s.i.toNat + x.val + 1) :
      Fails s (.storeRegs x) (.memoryOutOfBounds (max s.i.toNat 4096))
  /-- Registers to load that end past the end of memory. -/
  | loadRegs {x : Register} (h : 4096 < s.i.toNat + x.val + 1) :
      Fails s (.loadRegs x) (.memoryOutOfBounds (max s.i.toNat 4096))

/-- The two bytes that the program counter points at as one number, the first byte being worth 256
times as much, if both lie within memory. -/
def State.word? (s : State) : Option Word := do
  let first ← s.memory.bytes[s.pc.toNat]?
  let second ← s.memory.bytes[s.pc.toNat + 1]?
  return .ofNat (256 * first.toNat + second.toNat)

/-- The states that must fail, each with its fault. -/
inductive State.Fails (s : State) : Fault → Prop where
  /-- The word at the program counter ends past the end of memory. -/
  | fetch (h : 4096 < s.pc.toNat + 2) : Fails s (.memoryOutOfBounds (max s.pc.toNat 4096))
  /-- The instruction that this word stands for fails. -/
  | execute {w : Word} {fault : Fault} (hw : s.word? = some w)
      (h : (Instruction.decode w).Fails s fault) : Fails s fault

namespace Instruction

/-- The fault that an instruction raises in a state is the one with which it must fail. -/
theorem fails_iff {ins : Instruction} {s : State} {fault : Fault} :
    ins.Fails s fault ↔ ins.fault? s = some fault := by
  constructor
  · intro h
    cases h with
    | ret h =>
      have hd : s.stack.depth = 0 := by rw [← s.stack.length_toList, h]; rfl
      exact if_pos hd
    | call h =>
      rw [s.stack.length_toList] at h
      exact if_pos h
    | draw h => exact (Memory.accessFault?_eq_some_iff ..).mpr ⟨h, rfl⟩
    | storeDecimal h => exact (Memory.accessFault?_eq_some_iff ..).mpr ⟨h, rfl⟩
    | storeRegs h => exact (Memory.accessFault?_eq_some_iff ..).mpr ⟨h, rfl⟩
    | loadRegs h => exact (Memory.accessFault?_eq_some_iff ..).mpr ⟨h, rfl⟩
  · intro h
    cases ins with
    | ret =>
      obtain ⟨hd, hf⟩ := Option.ite_none_right_eq_some.mp h
      cases hf
      exact .ret (List.length_eq_zero_iff.mp (s.stack.length_toList.trans hd))
    | call address =>
      obtain ⟨hd, hf⟩ := Option.ite_none_right_eq_some.mp h
      cases hf
      exact .call (s.stack.length_toList.trans hd)
    | draw x y height =>
      obtain ⟨hl, rfl⟩ := (Memory.accessFault?_eq_some_iff ..).mp h
      exact .draw hl
    | storeDecimal x =>
      obtain ⟨hl, rfl⟩ := (Memory.accessFault?_eq_some_iff ..).mp h
      exact .storeDecimal hl
    | storeRegs x =>
      obtain ⟨hl, rfl⟩ := (Memory.accessFault?_eq_some_iff ..).mp h
      exact .storeRegs hl
    | loadRegs x =>
      obtain ⟨hl, rfl⟩ := (Memory.accessFault?_eq_some_iff ..).mp h
      exact .loadRegs hl
    | _ => cases h

end Instruction

namespace State

private theorem fetch_eq_ok_iff (s : State) (w : Word) : s.fetch = .ok w ↔ s.word? = some w := by
  unfold fetch Memory.readWord word?
  split
  · next hl =>
    have hfirst : s.pc.toNat < Memory.size := by omega
    have hsecond : s.pc.toNat + 1 < Memory.size := by omega
    rw [Vector.getElem?_eq_getElem hfirst, Vector.getElem?_eq_getElem hsecond, Except.ok.injEq]
    exact (Option.some.injEq _ _).symm.to_iff
  · next hl =>
    have hsecond : Memory.size ≤ s.pc.toNat + 1 := by omega
    rw [Vector.getElem?_eq_none hsecond]
    cases s.memory.bytes[s.pc.toNat]? <;> exact ⟨nofun, nofun⟩

/-- The fault to which a state leads is the one with which it must fail. -/
theorem fails_iff {s : State} {fault : Fault} : s.Fails fault ↔ s.fault? = some fault := by
  constructor
  · intro h
    cases h with
    | fetch h =>
      have hf : s.fetch = .error (Memory.outOfBounds s.pc) :=
        (Memory.readWord_eq_error_iff ..).mpr ⟨h, rfl⟩
      rw [fault?, hf]
      rfl
    | @execute w _ hw h =>
      rw [fault?, (s.fetch_eq_ok_iff w).mpr hw]
      exact Instruction.fails_iff.mp h
  · intro h
    unfold fault? at h
    split at h
    · next hf =>
      cases h
      obtain ⟨hl, rfl⟩ := (Memory.readWord_eq_error_iff ..).mp hf
      exact .fetch hl
    · next w hf => exact .execute ((s.fetch_eq_ok_iff w).mp hf) (Instruction.fails_iff.mpr h)

end State

namespace Machine

private theorem attempt_eq_error_iff_fails (m : Machine) (noise : UInt8) (fault : Fault) :
    m.attempt noise = .error fault ↔ m.state.Fails fault :=
  (m.attempt_eq_error_iff noise fault).trans State.fails_iff.symm

private theorem exists_word_of_currentInstruction {m : Machine} {ins : Instruction}
    (h : m.currentInstruction = .ok ins) :
    ∃ w, m.state.word? = some w ∧ Instruction.decode w = ins := by
  unfold currentInstruction at h
  cases hw : m.state.fetch with
  | error fault =>
    rw [hw] at h
    cases h
  | ok w =>
    rw [hw] at h
    exact ⟨w, (m.state.fetch_eq_ok_iff w).mp hw, Except.ok.inj h⟩

/-- A step of a machine that is not halted fails exactly when it must, and with that fault. It then
records the fault and leaves state, history and keys as they were. Otherwise it runs the instruction
that the word at the program counter stands for, and no fault is recorded. -/
theorem step_fails_iff {m : Machine} (h : m.fault = none) (noise : UInt8) :
    (∀ fault, (m.step noise).1 = .error fault ↔ m.state.Fails fault) ∧
      (∀ fault, m.state.Fails fault → (m.step noise).2 = { m with fault := some fault }) ∧
      ((¬∃ fault, m.state.Fails fault) →
        ∃ w, m.state.word? = some w ∧ (m.step noise).1 = .ok (.decode w) ∧
          (m.step noise).2.fault = none) := by
  have hfails := m.attempt_eq_error_iff_fails noise
  have hstep (fault : Fault) (hf : m.state.Fails fault) :
      m.step noise = (.error fault, { m with fault := some fault }) :=
    step_of_attempt_eq_error h ((hfails fault).mpr hf)
  refine ⟨?_, fun fault hf ↦ congrArg Prod.snd (hstep fault hf), ?_⟩
  · intro fault
    refine ⟨?_, fun hf ↦ congrArg Prod.fst (hstep fault hf)⟩
    intro he
    rcases m.step_cases noise with
      ⟨recorded, hf, -⟩ | ⟨raised, -, ha, hs⟩ | ⟨ins, next, -, -, -, hs⟩
    · rw [h] at hf
      cases hf
    · rw [hs] at he
      cases he
      exact (hfails fault).mp ha
    · rw [hs] at he
      cases he
  · intro hn
    rcases m.step_cases noise with
      ⟨recorded, hf, -⟩ | ⟨raised, -, ha, hs⟩ | ⟨ins, next, -, hc, -, hs⟩
    · rw [h] at hf
      cases hf
    · exact absurd ⟨raised, (hfails raised).mp ha⟩ hn
    · obtain ⟨w, hw, rfl⟩ := exists_word_of_currentInstruction hc
      rw [hs]
      exact ⟨w, hw, rfl, (m.fault_advanceTo next).trans h⟩

/-- A program that stores three digits at the last two bytes of memory fails there. -/
theorem step_fails_iff_of_digits_at_end :
    let m := powerUp.after [.load [0xAF, 0xFE, 0xF0, 0x33], .step 0]
    m.fault = none ∧ m.state.Fails (.memoryOutOfBounds 4096) ∧
      m.step 0 = (.error (.memoryOutOfBounds 4096),
        { m with fault := some (.memoryOutOfBounds 4096) }) := by
  intro m
  have hat : m.fault = none ∧ m.state.word? = some 0xF033 ∧ m.state.i = 0xFFE := by
    decide +kernel +zetaReduce
  obtain ⟨h, hw, hi⟩ := hat
  have hdigits : (Instruction.storeDecimal 0).Fails m.state (.memoryOutOfBounds 4096) := by
    have hl : 4096 < m.state.i.toNat + 3 := by rw [hi]; decide
    have hf := Instruction.Fails.storeDecimal (x := 0) hl
    rw [hi] at hf
    exact hf
  have hfails : m.state.Fails (.memoryOutOfBounds 4096) := .execute hw hdigits
  obtain ⟨herror, hrecords, -⟩ := step_fails_iff h 0
  exact ⟨h, hfails, Prod.ext ((herror _).mpr hfails) (hrecords _ hfails)⟩

end Machine

end ChipEight
