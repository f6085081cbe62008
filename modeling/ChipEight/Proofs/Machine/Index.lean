import Mathlib.Algebra.GroupWithZero.Nat
import Mathlib.Control.Monad.Basic
import ChipEight.Proofs.Instruction.Footprint
import ChipEight.Proofs.Machine.Halt

/-!
# The index

The index as a sum. Two instructions set it, one adds a register to it, and no other moves it. The
addition saturates, and saturating along the way comes to the same as cutting the whole sum at the
greatest index. So as long as nothing sets the index it never decreases, and once it is past the end
of memory it stays there, where every instruction that looks at memory from the index on fails.
-/

namespace ChipEight

/-- Whether an instruction gives the index a value that does not depend on the old one. -/
def Instruction.setsIndex : Instruction → Bool
  | .setIndex _ | .indexDigit _ => true
  | _ => false

/-- Whether an instruction reads or writes memory from the index on. A sprite without rows needs no
memory. -/
def Instruction.usesIndex : Instruction → Bool
  | .draw _ _ height => height.toNat != 0
  | .storeDecimal _ | .storeRegs _ | .loadRegs _ => true
  | _ => false

/-- What an instruction that ran has added to the index. -/
def Execution.indexGain (x : Execution) : Nat :=
  match x.ins with
  | .addIndex r => (x.state.reg r).toNat
  | _ => 0

namespace Machine

/-- What the instructions that run in the course of operations add to the index, taken together. -/
def indexGain (m : Machine) (commands : List Command) : Nat :=
  ((m.executions commands).map Execution.indexGain).sum

/-- The operations go forward, and no instruction that runs in their course sets the index. -/
structure NeverSetsIndex (m : Machine) (commands : List Command) : Prop where
  forward : ∀ c ∈ commands, c.isForward = true
  unset : ∀ x ∈ m.executions commands, x.ins.setsIndex = false

end Machine

/-! ### One instruction -/

private theorem toNat_addToIndex (i : UInt16) (a : UInt8) :
    (addToIndex i a).toNat = min 0xFFFF (i.toNat + a.toNat) := by
  rw [addToIndex, UInt16.toNat_ofNat']
  omega

namespace Instruction

variable {ins : Instruction} {s t : State}

/-- An instruction that does not set the index adds to it what it should. -/
theorem toNat_index_of_execute {keys : Keypad} {noise : UInt8}
    (h : ins.execute s keys noise = .ok t) (hs : ins.setsIndex = false) :
    t.i.toNat = min 0xFFFF (s.i.toNat + Execution.indexGain ⟨ins, s⟩) := by
  have hi := s.i.toNat_lt
  unfold Execution.indexGain
  split
  · next x hx =>
    cases hx
    cases h
    exact toNat_addToIndex ..
  · next hx =>
    rcases (footprint_of_execute h).index with hkept | ⟨address, rfl⟩ | ⟨x, rfl⟩ | ⟨x, rfl⟩
    · rw [hkept]
      omega
    · cases hs
    · exact absurd rfl (hx x)
    · cases hs

private theorem fault?_of_usesIndex (h : ins.usesIndex = true) (hi : 0x1000 ≤ s.i.toNat) :
    ins.fault? s = some (.memoryOutOfBounds s.i.toNat) := by
  have hfault (len : Nat) (hl : 0 < len) :
      Memory.accessFault? s.i len = some (.memoryOutOfBounds s.i.toNat) := by
    have hmax : max s.i.toNat Memory.size = s.i.toNat := Nat.max_eq_left hi
    rw [Memory.accessFault?_eq_some_iff, Memory.outOfBounds, hmax]
    exact ⟨Nat.lt_of_le_of_lt hi (Nat.lt_add_of_pos_right hl), rfl⟩
  cases ins with
  | draw x y height =>
    have hne : height.toNat ≠ 0 := bne_iff_ne.mp h
    exact hfault height.toNat (Nat.pos_of_ne_zero hne)
  | storeDecimal x => exact hfault 3 (by decide)
  | storeRegs x => exact hfault (x.val + 1) x.val.succ_pos
  | loadRegs x => exact hfault (x.val + 1) x.val.succ_pos
  | _ => cases h

end Instruction

/-! ### Operations in a row -/

namespace Machine

/-- The gains of operations carried out in two parts add up. -/
theorem indexGain_append (m : Machine) (a b : List Command) :
    m.indexGain (a ++ b) = m.indexGain a + (m.after a).indexGain b := by
  rw [indexGain, executions_append, List.map_append, List.sum_append]
  rfl

/-- If nothing sets the index in the course of operations, nothing does in either of two parts. -/
theorem neverSetsIndex_append_iff (m : Machine) (a b : List Command) :
    m.NeverSetsIndex (a ++ b) ↔ m.NeverSetsIndex a ∧ (m.after a).NeverSetsIndex b := by
  constructor
  · rintro ⟨hf, hu⟩
    rw [List.forall_mem_append] at hf
    rw [executions_append, List.forall_mem_append] at hu
    exact ⟨⟨hf.1, hu.1⟩, ⟨hf.2, hu.2⟩⟩
  · rintro ⟨ha, hb⟩
    refine ⟨List.forall_mem_append.mpr ⟨ha.forward, hb.forward⟩, ?_⟩
    rw [executions_append]
    exact List.forall_mem_append.mpr ⟨ha.unset, hb.unset⟩

/-- A transition other than going back or beginning anew adds to the index what its instruction
adds, if one runs. -/
theorem Transition.toNat_index {m next : Machine} {e : Exchange} (h : m.Transition e next)
    (hn : e.restarts = false) (hb : e.restores = false)
    (hs : ∀ ins, e.ran? = some ins → ins.setsIndex = false) :
    next.state.i.toNat = min 0xFFFF (m.state.i.toNat +
      ((e.ran?.map (⟨·, m.state⟩)).toList.map Execution.indexGain).sum) := by
  have hi := m.state.i.toNat_lt
  have hkept : m.state.i.toNat = min 0xFFFF (m.state.i.toNat + 0) := by omega
  cases h with
  | restart memory hr =>
    rw [hn] at hr
    cases hr
  | run hf hc he =>
    rw [state_advanceTo]
    simpa [Exchange.ran?] using Instruction.toNat_index_of_execute he (hs _ rfl)
  | restore hh => cases hb
  | refuse hn hr =>
    rw [Exchange.ran?_of_refuses hr]
    exact hkept
  | _ => exact hkept

/-- As long as nothing sets the index, it is what it was plus all that was added to it, cut at the
greatest index. -/
theorem NeverSetsIndex.toNat_index {m : Machine} {commands : List Command}
    (h : m.NeverSetsIndex commands) :
    (m.after commands).state.i.toNat = min 0xFFFF (m.state.i.toNat + m.indexGain commands) := by
  induction commands generalizing m with
  | nil =>
    have hi := m.state.i.toNat_lt
    change m.state.i.toNat = min 0xFFFF (m.state.i.toNat + 0)
    omega
  | cons c rest ih =>
    rw [← List.singleton_append] at h ⊢
    obtain ⟨hfirst, hrest⟩ := (m.neverSetsIndex_append_iff [c] rest).mp h
    obtain ⟨hn, hb⟩ := m.exchange_of_isForward (hfirst.forward c List.mem_cons_self)
    have hone : (m.after [c]).state.i.toNat = min 0xFFFF (m.state.i.toNat + m.indexGain [c]) := by
      rw [indexGain, executions, executions, List.append_nil]
      exact (m.transition_perform c).toNat_index hn hb
        (forall_mem_executions_cons.mp hfirst.unset).1
    rw [after_append, ih hrest, hone, indexGain_append]
    omega

private theorem NeverSetsIndex.index_le {m : Machine} {commands : List Command}
    (h : m.NeverSetsIndex commands) : m.state.i ≤ (m.after commands).state.i := by
  have hi := m.state.i.toNat_lt
  rw [UInt16.le_iff_toNat_le, h.toNat_index]
  omega

private theorem NeverSetsIndex.take {m : Machine} {commands : List Command}
    (h : m.NeverSetsIndex commands) (k : Nat) : m.NeverSetsIndex (commands.take k) := by
  rw [← List.take_append_drop k commands, neverSetsIndex_append_iff] at h
  exact h.1

private theorem NeverSetsIndex.index_le_of_le {m : Machine} {commands : List Command}
    (h : m.NeverSetsIndex commands) {j k : Nat} (hjk : j ≤ k) :
    (m.after (commands.take j)).state.i ≤ (m.after (commands.take k)).state.i := by
  have hsplit := List.take_append_drop j (commands.take k)
  rw [List.take_take, Nat.min_eq_left hjk] at hsplit
  have htake := h.take k
  rw [← hsplit, neverSetsIndex_append_iff] at htake
  rw [← hsplit, after_append]
  exact htake.2.index_le

private theorem registers_of_addIndex {m : Machine} {noise : UInt8} {x : Register}
    (h : (m.step noise).1 = .ok (.addIndex x)) : (m.step noise).2.state.v = m.state.v := by
  obtain ⟨-, -, next, he, hs⟩ := exists_execute_of_step h
  cases he
  rw [hs, state_advanceTo]
  rfl

private theorem step_of_usesIndex {m : Machine} {ins : Instruction} (hf : m.fault = none)
    (hc : m.currentInstruction = .ok ins) (hu : ins.usesIndex = true)
    (hi : 0x1000 ≤ m.state.i.toNat) (noise : UInt8) :
    m.step noise = (.error (.memoryOutOfBounds m.state.i.toNat),
      { m with fault := some (.memoryOutOfBounds m.state.i.toNat) }) := by
  apply step_of_attempt_eq_error hf
  rw [attempt_eq_error_iff, fault?_of_currentInstruction hc]
  exact Instruction.fault?_of_usesIndex hu hi

/-- The index never wraps around. At every point of a run in whose course nothing sets the index, it
is what it was at the start plus the registers that have been added to it, cut at the greatest
index; so it never decreases. The additions themselves write no register, the flag register
included. From a point on at which the index has left memory, a step fails if its instruction reads
or writes memory from the index on: it reports the index and changes nothing but to halt the
machine. -/
theorem index_never_wraps {m : Machine} {commands : List Command}
    (h : m.NeverSetsIndex commands) (k : Nat) :
    let reached := m.after (commands.take k)
    reached.state.i.toNat = min 0xFFFF (m.state.i.toNat + m.indexGain (commands.take k)) ∧
      (∀ noise x, (reached.step noise).1 = .ok (.addIndex x) →
        (reached.step noise).2.state.v = reached.state.v) ∧
      ∀ j ≤ k,
        let earlier := m.after (commands.take j)
        earlier.state.i ≤ reached.state.i ∧
          (0x1000 ≤ earlier.state.i.toNat → ∀ ins noise, reached.fault = none →
            reached.currentInstruction = .ok ins → ins.usesIndex = true →
            reached.step noise = (.error (.memoryOutOfBounds reached.state.i.toNat),
              { reached with fault := some (.memoryOutOfBounds reached.state.i.toNat) })) := by
  intro reached
  refine ⟨(h.take k).toNat_index, fun noise x hran ↦ registers_of_addIndex hran, ?_⟩
  intro j hjk earlier
  have hle : earlier.state.i ≤ reached.state.i := h.index_le_of_le hjk
  refine ⟨hle, ?_⟩
  intro hi ins noise hf hc hu
  exact step_of_usesIndex hf hc hu (Nat.le_trans hi (UInt16.le_iff_toNat_le.mp hle)) noise

/-- A program that adds the flag register to the index at the last byte of memory keeps that
register, and cannot store the digits of another one after that. -/
theorem index_never_wraps_of_flag_added :
    let m := powerUp.after [.load [0xAF, 0xFF, 0x6F, 0x05, 0xFF, 0x1E, 0xF0, 0x33], .step 0]
    let commands : List Command := [.step 0, .tick, .step 0, .takeFrame]
    let reached := m.after commands
    m.NeverSetsIndex commands ∧ m.indexGain commands = 5 ∧ reached.state.i.toNat = 0x1004 ∧
      reached.state.reg .flag = 5 ∧ reached.currentInstruction = .ok (.storeDecimal 0) ∧
      (reached.step 0).1 = .error (.memoryOutOfBounds 0x1004) := by
  intro m commands reached
  have hat : (∀ x ∈ m.executions commands, x.ins.setsIndex = false) ∧
      m.state.i.toNat = 0xFFF ∧ m.indexGain commands = 5 ∧ reached.state.reg .flag = 5 ∧
      reached.fault = none ∧ reached.currentInstruction = .ok (.storeDecimal 0) := by
    decide +kernel +zetaReduce
  obtain ⟨hunset, hstart, hgain, hflag, hf, hc⟩ := hat
  have h : m.NeverSetsIndex commands := ⟨by decide +zetaReduce, hunset⟩
  -- From here on, what the program leads to is not computed again.
  have hreached : m.after (commands.take 4) = reached := rfl
  have hall : commands.take 4 = commands := rfl
  clear_value reached m commands
  have hnever := index_never_wraps h 4
  rw [hreached, hall] at hnever
  obtain ⟨hsum, -, hpoint⟩ := hnever
  have hi : reached.state.i.toNat = 0x1004 := by omega
  have hpast := (hpoint 4 (Nat.le_refl 4)).2
  rw [hreached, hi] at hpast
  have hstep := hpast (by decide) (.storeDecimal 0) 0 hf hc rfl
  exact ⟨h, hgain, hi, hflag, hc, congrArg Prod.fst hstep⟩

end Machine

end ChipEight
