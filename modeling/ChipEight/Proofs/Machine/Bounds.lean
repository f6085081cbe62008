import ChipEight.Machine.Checked
import ChipEight.Proofs.Instruction.Checked
import ChipEight.Proofs.Instruction.Effect
import ChipEight.Proofs.Machine.Transition

/-!
# Bounds

What no sequence of operations can exceed. An instruction runs only if its word lies within memory,
which bounds the program counter before it; afterwards the counter is past that word, at an address
operand, at a return address, or at an address operand plus a byte. The last of these reaches the
furthest past the end of memory, where the next step faults. Operations keep these bounds for the
present state and for every state in the history, so that a machine can go back to any of them.

The bound on the counter before an instruction is also what the sums of that instruction need, so no
check of checked operation ever fails.
-/

namespace ChipEight

/-- The bounds on a state. A jump by an offset reaches the greatest program counter. -/
structure State.Bounded (s : State) : Prop where
  pc_le : s.pc.toNat ≤ 0x10FE
  depth_le : s.stack.depth ≤ 16
  return_le : ∀ address ∈ s.stack.toList, address.toNat ≤ 0x1000
  binary : s.frame.Binary

/-- The bounds on a machine: those on its present and on its earlier states, and on their number. -/
structure Machine.Bounded (m : Machine) : Prop where
  state : m.state.Bounded
  history : ∀ s ∈ m.history, s.Bounded
  length_le : m.history.length ≤ 600

namespace State

/-- The initial state is within bounds, whatever program is in memory. -/
theorem bounded_initial (memory : Memory) : { initial with memory }.Bounded where
  pc_le := by
    change initial.pc.toNat ≤ 0x10FE
    decide
  depth_le := by
    change initial.stack.depth ≤ 16
    decide
  return_le := by
    intro address h
    exact absurd h List.not_mem_nil
  binary := Frame.binary_blank

private theorem Bounded.of_eq {s t : State} (h : s.Bounded) (hp : t.pc = s.pc)
    (hs : t.stack = s.stack) (hf : t.frame = s.frame) : t.Bounded where
  pc_le := hp ▸ h.pc_le
  depth_le := hs ▸ h.depth_le
  return_le := hs ▸ h.return_le
  binary := hf ▸ h.binary

private theorem Bounded.withPc {s : State} (h : s.Bounded) {pc : UInt16} (hp : pc.toNat ≤ 0x10FE) :
    { s with pc }.Bounded :=
  ⟨hp, h.depth_le, h.return_le, h.binary⟩

private theorem toNat_add_two {pc : UInt16} (h : pc.toNat + 2 ≤ Memory.size) :
    (pc + 2).toNat = pc.toNat + 2 := by
  rw [UInt16.toNat_add]
  change (pc.toNat + 2) % 65536 = _
  simp only [Memory.size] at h
  omega

/-- An instruction whose word lies within memory leads from state to state within bounds. -/
theorem Bounded.effect {s t : State} {keys : Keypad} {ins : Instruction} (h : s.Bounded)
    (hp : s.pc.toNat + 2 ≤ Memory.size)
    (ha : ∀ address, ins.address? = some address → address.toNat < Memory.size)
    (he : ins.Effect s keys t) : t.Bounded := by
  have hn : (s.pc + 2).toNat = s.pc.toNat + 2 := toNat_add_two hp
  have hnext : s.advance.Bounded := h.withPc (by rw [hn]; simp only [Memory.size] at hp; omega)
  cases he with
  | jump address =>
    apply h.withPc
    have := ha address rfl
    simp only [Memory.size] at this
    omega
  | jumpOffset address =>
    apply h.withPc
    have hv := (s.reg .offset).toNat_lt
    have := ha address rfl
    simp only [Memory.size] at this
    rw [UInt16.toNat_add, UInt8.toNat_toUInt16]
    omega
  | @call stack address hpush =>
    have := ha address rfl
    simp only [Memory.size] at this hp
    refine ⟨by change address.toNat ≤ _; omega, stack.depth_le, ?_, h.binary⟩
    intro live hl
    change live ∈ stack.toList at hl
    rw [CallStack.toList_of_push hpush, List.mem_append, List.mem_singleton] at hl
    rcases hl with hl | rfl
    · exact h.return_le live hl
    · omega
  | @ret pc stack hpop =>
    have hlive := CallStack.toList_of_pop hpop
    have hpc : pc.toNat ≤ 0x1000 := h.return_le pc (by rw [hlive]; simp)
    refine ⟨by change pc.toNat ≤ _; omega, stack.depth_le, ?_, h.binary⟩
    intro live hl
    exact h.return_le live (by rw [hlive]; exact List.mem_append_left _ hl)
  | wait x hk => exact h
  | skip condition hc =>
    apply hnext.withPc
    change (s.pc + 2 + 2).toNat ≤ _
    simp only [Memory.size] at hp
    rw [UInt16.toNat_add, hn]
    change (s.pc.toNat + 2 + 2) % 65536 ≤ _
    omega
  | registers v => exact hnext.of_eq rfl rfl rfl
  | index i => exact hnext.of_eq rfl rfl rfl
  | delay x => exact hnext.of_eq rfl rfl rfl
  | sound x => exact hnext.of_eq rfl rfl rfl
  | memory data hw => exact hnext.of_eq rfl rfl rfl
  | clear => exact ⟨hnext.pc_le, hnext.depth_le, hnext.return_le, Frame.binary_blank⟩
  | draw x y height v hr =>
    exact ⟨hnext.pc_le, hnext.depth_le, hnext.return_le,
      Drawing.binary_plotRows (d := ⟨s.frame, 0⟩) h.binary _ _ _⟩

end State

namespace Machine

/-- The machine on which nothing has been loaded is within bounds. -/
theorem bounded_powerUp : powerUp.Bounded where
  state := State.bounded_initial .initial
  history := by
    intro s h
    exact absurd h List.not_mem_nil
  length_le := by decide

private theorem Bounded.advanceTo {m : Machine} (h : m.Bounded) {next : State} (hn : next.Bounded) :
    (m.advanceTo next).Bounded := by
  unfold Machine.advanceTo
  split
  · exact h
  · refine ⟨hn, ?_, List.length_take_le _ _⟩
    intro s hs
    rcases List.mem_cons.mp (List.mem_of_mem_take hs) with rfl | hs
    · exact h.state
    · exact h.history s hs

/-- Every transition keeps a machine within bounds. -/
theorem Bounded.transition {m next : Machine} {e : Exchange} (h : m.Bounded)
    (ht : m.Transition e next) : next.Bounded := by
  cases ht with
  | restart memory hr =>
    exact ⟨State.bounded_initial memory, bounded_powerUp.history, bounded_powerUp.length_le⟩
  | run hf hc he =>
    obtain ⟨hp, w, rfl⟩ := decode_of_currentInstruction hc
    apply h.advanceTo
    exact h.state.effect hp (fun _ ↦ Instruction.toNat_address_lt_of_decode)
      (Instruction.effect_of_execute he)
  | raise hf ha => exact ⟨h.state, h.history, h.length_le⟩
  | tick hf => exact ⟨h.state.of_eq rfl rfl rfl, h.history, h.length_le⟩
  | rest hf => exact h
  | press keys => exact ⟨h.state, h.history, h.length_le⟩
  | release keys => exact ⟨h.state, h.history, h.length_le⟩
  | take hd => exact ⟨h.state.of_eq rfl rfl rfl, h.history, h.length_le⟩
  | @restore s older hh =>
    have hb : ∀ t ∈ s :: older, t.Bounded := hh ▸ h.history
    have hl := h.length_le
    rw [hh, List.length_cons] at hl
    exact ⟨(hb s (by simp)).of_eq rfl rfl rfl, fun t ht ↦ hb t (by simp [ht]), Nat.le_of_succ_le hl⟩
  | refuse hn hr => exact h

/-- Operations keep a machine within bounds. -/
theorem Bounded.after {m : Machine} (h : m.Bounded) (commands : List Command) :
    (m.after commands).Bounded :=
  after_preserves h fun c _ m hm ↦ hm.transition (m.transition_perform c)

end Machine

namespace Checked

private theorem run_attempt (m : Machine) (noise : UInt8) :
    (attempt m noise).run = some (m.attempt noise) := by
  have hc : m.attempt noise = m.state.fetch >>= fun w ↦
      (Instruction.decode w).execute m.state m.keys noise >>= fun next ↦
        .ok (Instruction.decode w, next) := by
    unfold Machine.attempt Machine.currentInstruction
    cases m.state.fetch <;> rfl
  rw [hc]
  apply run_bind_of_run (run_fetch m.state)
  intro w hw
  have hp := Memory.add_two_le_of_readWord hw
  have hz : UInt16.size = 65536 := rfl
  simp only [Memory.size] at hp
  have he : (execute (.decode w) m.state m.keys noise).run =
      some ((Instruction.decode w).execute m.state m.keys noise) :=
    run_execute m.keys noise (by omega) fun _ ↦ Instruction.toNat_address_lt_of_decode
  exact run_bind_of_run he fun next _ ↦ rfl

/-- No check of a step fails. -/
theorem step_eq (m : Machine) (noise : UInt8) : step m noise = some (m.step noise) := by
  unfold step Machine.step
  cases m.fault with
  | some fault => rfl
  | none =>
    simp only [run_attempt, Option.bind_eq_bind, Option.bind_some]
    cases m.attempt noise <;> rfl

private theorem run_ofRom (rom : List UInt8) : (ofRom rom).run = some (Machine.ofRom rom) := by
  unfold ofRom Machine.ofRom
  split
  · rfl
  · have hw := run_write State.initial.memory State.initial.pc rom
    unfold State.ofRom
    rw [ExceptT.run_bind, hw]
    cases State.initial.memory.write State.initial.pc rom <;> rfl

/-- No check of an operation fails. -/
theorem perform_eq (m : Machine) (c : Command) : perform m c = some (m.perform c) := by
  cases c with
  | load rom =>
    simp only [perform, run_ofRom]
    rfl
  | step noise =>
    simp only [perform, step_eq, Machine.perform, Option.bind_eq_bind, Option.bind_some]
    rcases m.step noise with ⟨⟨⟩ | ⟨⟩, next⟩ <;> rfl
  | _ => rfl

/-- No check of operations in a row fails. -/
theorem performAll_eq (m : Machine) (commands : List Command) :
    performAll m commands = some (m.performAll commands) := by
  induction commands generalizing m with
  | nil => rfl
  | cons c rest ih =>
    simp only [performAll, perform_eq, ih, Option.bind_eq_bind, Option.bind_some]
    rfl

end Checked

/-- Whatever is done to a machine after power-up, in any order and whatever its steps draw, it stays
within bounds, and checked operation goes through with the same answers. -/
theorem Machine.reachable_bounded_and_checked (commands : List Command) :
    (powerUp.after commands).Bounded ∧
      Checked.performAll powerUp commands = some (powerUp.performAll commands) :=
  ⟨bounded_powerUp.after commands, Checked.performAll_eq powerUp commands⟩

end ChipEight
