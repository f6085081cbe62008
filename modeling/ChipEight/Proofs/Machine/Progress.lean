import Mathlib.Control.Monad.Basic
import ChipEight.Proofs.Machine.Bounds
import ChipEight.Proofs.Machine.Stall

/-!
# Progress and stalls

A step that succeeds either stalls or makes progress that shows in the program counter or in the
live return addresses, and then the state before it goes into the history. There are three stalls:
two jumps that lead to their own address, and a wait for a key while every key is up. Time does not
end them, and nothing that goes forward ends those of the jumps, so a machine that has stalled once
goes on to run the same instruction without effect.
-/

namespace ChipEight

/-- The three stalls, told by numbers and keys: a jump to its own address, a jump by an offset to
its own address, and a wait for a key while every key is up. -/
inductive Instruction.Idles (s : State) (keys : Keypad) : Instruction → Prop where
  | jump {address : UInt16} (h : address.toNat = s.pc.toNat) : Idles s keys (.jump address)
  | jumpOffset {address : UInt16} (h : address.toNat + (s.reg 0).toNat = s.pc.toNat) :
      Idles s keys (.jumpOffset address)
  | awaitKey {x : Register} (h : ∀ key, keys.isDown key = false) : Idles s keys (.awaitKey x)

/-- Whether an instruction waits for a key. -/
def Instruction.awaitsKey : Instruction → Bool
  | .awaitKey _ => true
  | _ => false

/-- Whether an operation cannot end a stall in an instruction: a step, a tick and the taking of the
picture end none, and a key ends a wait for a key only. -/
def Command.sparesStall (ins : Instruction) : Command → Bool
  | .step _ | .tick | .takeFrame => true
  | .press _ | .release _ => !ins.awaitsKey
  | .powerUp | .load _ | .rewind => false

namespace Instruction

private theorem add_offset_eq_iff {address pc : UInt16} (h : address.toNat < Memory.size)
    (a : UInt8) :
    address + a.toUInt16 = pc ↔ address.toNat + a.toNat = pc.toNat := by
  rw [← UInt16.toNat_inj, toNat_add_offset h]

/-- The instructions that stall are those three. -/
theorem idles_iff_stalls {ins : Instruction} {s : State} {keys : Keypad}
    (ha : ∀ address, ins.address? = some address → address.toNat < Memory.size) :
    ins.Idles s keys ↔ ins.Stalls s keys := by
  constructor
  · intro h
    cases h with
    | jump h => exact UInt16.toNat_inj.mp h
    | jumpOffset h => exact (add_offset_eq_iff (ha _ rfl) _).mpr h
    | awaitKey h => exact keys.lowest?_eq_none_iff.mpr h
  · intro h
    cases ins with
    | jump address => exact .jump (congrArg UInt16.toNat h)
    | jumpOffset address => exact .jumpOffset ((add_offset_eq_iff (ha _ rfl) _).mp h)
    | awaitKey x => exact .awaitKey (keys.lowest?_eq_none_iff.mp h)
    | _ => exact h.elim

private theorem Stalls.of_awaitsKey_eq_false {ins : Instruction} {s : State} {keys : Keypad}
    (h : ins.Stalls s keys) (hk : (!ins.awaitsKey) = true) (moved : Keypad) :
    ins.Stalls s moved := by
  cases ins with
  | awaitKey x => cases hk
  | _ => exact h

end Instruction

namespace Machine

/-- The machine is about to run an instruction that stalls. -/
structure StuckIn (m : Machine) (ins : Instruction) : Prop where
  fault_eq : m.fault = none
  current : m.currentInstruction = .ok ins
  stalls : ins.Stalls m.state m.keys

variable {m : Machine} {ins : Instruction}

/-- A machine that is stuck stays so under every operation that cannot end its stall. -/
theorem StuckIn.perform (h : m.StuckIn ins) {c : Command} (hc : c.sparesStall ins = true) :
    (m.perform c).2.StuckIn ins := by
  cases c with
  | powerUp => cases hc
  | load rom => cases hc
  | rewind => cases hc
  | step noise =>
    rw [perform_step, step_of_stalls h.fault_eq h.current h.stalls]
    exact h
  | tick =>
    change m.tick.StuckIn ins
    rw [tick_of_fault_eq_none h.fault_eq]
    exact ⟨h.fault_eq, h.current, h.stalls.of_eq rfl rfl⟩
  | press code =>
    obtain ⟨keys, hk⟩ := m.perform_press code
    rw [hk]
    exact ⟨h.fault_eq, h.current, h.stalls.of_awaitsKey_eq_false hc keys⟩
  | release code =>
    obtain ⟨keys, hk⟩ := m.perform_release code
    rw [hk]
    exact ⟨h.fault_eq, h.current, h.stalls.of_awaitsKey_eq_false hc keys⟩
  | takeFrame =>
    rw [perform_takeFrame]
    exact ⟨h.fault_eq, h.current, h.stalls.of_eq rfl rfl⟩

/-- A machine that is stuck stays so under any number of operations that cannot end its stall. -/
theorem StuckIn.after (h : m.StuckIn ins) {commands : List Command}
    (hc : ∀ c ∈ commands, c.sparesStall ins = true) : (m.after commands).StuckIn ins :=
  after_preserves (P := (·.StuckIn ins)) h fun c hm _ hs ↦ hs.perform (hc c hm)

private theorem history_advanceTo {next : State} (hl : m.history.length ≤ 600)
    (hn : next ≠ m.state) :
    (m.advanceTo next).history =
      m.state :: if m.history.length = 600 then m.history.dropLast else m.history := by
  rw [advanceTo, if_neg hn]
  change m.state :: m.history.take 599 = _
  split
  · next hfull => rw [List.dropLast_eq_take, hfull]
  · next hroom => rw [List.take_of_length_le (by omega)]

/-- A step that succeeds stalls or makes progress. Whatever was done to a machine after power-up, if
its step runs an instruction, then state and history stay as they are exactly for a jump to its own
address, a jump by an offset to its own address and a wait for a key while every key is up. For
every other instruction the state before the step becomes the newest entry of the history, which
loses its oldest entry if it was full, and the program counter or the live return addresses have
changed. After a stall, whatever is done that cannot end it, a step runs the same instruction and
changes nothing. -/
theorem step_stalls_or_progresses (before : List Command) (noise : UInt8) {ins : Instruction}
    (h : ((powerUp.after before).step noise).1 = .ok ins) :
    let m := powerUp.after before
    let next := (m.step noise).2
    (next.state = m.state ∧ next.history = m.history ↔ ins.Idles m.state m.keys) ∧
      (¬ins.Idles m.state m.keys →
        next.history =
            m.state :: (if m.history.length = 600 then m.history.dropLast else m.history) ∧
          (next.state.pc ≠ m.state.pc ∨ next.state.stack.toList ≠ m.state.stack.toList)) ∧
      (ins.Idles m.state m.keys → ∀ commands, (∀ c ∈ commands, c.sparesStall ins = true) →
        ∀ byte, (next.after commands).step byte = (.ok ins, next.after commands)) := by
  intro m next
  have hl : m.history.length ≤ 600 := (bounded_powerUp.after before).length_le
  obtain ⟨hf, hc, t, he, hs⟩ := exists_execute_of_step h
  have hidle : ins.Idles m.state m.keys ↔ ins.Stalls m.state m.keys := by
    obtain ⟨-, w, rfl⟩ := decode_of_currentInstruction hc
    exact Instruction.idles_iff_stalls fun _ ↦ Instruction.toNat_address_lt_of_decode
  have hsame : t = m.state ↔ ins.Idles m.state m.keys :=
    (Instruction.eq_self_iff_stalls he).trans hidle.symm
  have hnext : next = m.advanceTo t := congrArg Prod.snd hs
  have hstate : next.state = t := by rw [hnext, state_advanceTo]
  refine ⟨?_, ?_, ?_⟩
  · rw [← hsame, hstate]
    refine ⟨And.left, ?_⟩
    rintro rfl
    rw [hnext, advanceTo_self]
    exact ⟨rfl, rfl⟩
  · intro hn
    refine ⟨?_, ?_⟩
    · rw [hnext]
      exact history_advanceTo hl (mt hsame.mp hn)
    · rw [hstate, ← Decidable.not_and_iff_not_or_not]
      rintro ⟨hp, hlive⟩
      exact hn (hidle.mpr ((Instruction.effect_of_execute he).stalls_of_pc_eq hp hlive))
  · intro hi commands hcommands byte
    have hstuck : m.StuckIn ins := ⟨hf, hc, hidle.mp hi⟩
    have hm : next = m := by rw [hnext, hsame.mpr hi, advanceTo_self]
    rw [hm]
    obtain ⟨hf', hc', hs'⟩ := hstuck.after hcommands
    exact step_of_stalls hf' hc' hs' byte

/-- A jump by an offset to its own address stalls, and goes on to do so while keys move and time
passes. A call of its own address leaves the program counter in place as well but is no stall. -/
theorem step_stalls_or_progresses_of_own_address :
    let beforeJump : List Command := [.load [0x60, 0x04, 0xB1, 0xFE], .step 0]
    let beforeCall : List Command := [.load [0x22, 0x00]]
    let meanwhile : List Command := [.press 3, .tick, .step 0, .takeFrame, .release 3]
    let jumped := ((powerUp.after beforeJump).step 0).2
    let called := ((powerUp.after beforeCall).step 0).2
    (((powerUp.after beforeJump).step 0).1 = .ok (.jumpOffset 0x1FE) ∧
      jumped.state = (powerUp.after beforeJump).state ∧
      (jumped.after meanwhile).step 7 = (.ok (.jumpOffset 0x1FE), jumped.after meanwhile)) ∧
    (((powerUp.after beforeCall).step 0).1 = .ok (.call 0x200) ∧
      called.state.pc = (powerUp.after beforeCall).state.pc ∧
      called.history = [(powerUp.after beforeCall).state]) := by
  intro beforeJump beforeCall meanwhile jumped called
  have hjump : ((powerUp.after beforeJump).step 0).1 = .ok (.jumpOffset 0x1FE) ∧
      (0x1FE : UInt16).toNat + ((powerUp.after beforeJump).state.reg 0).toNat =
        (powerUp.after beforeJump).state.pc.toNat ∧
      ∀ c ∈ meanwhile, c.sparesStall (.jumpOffset 0x1FE) = true := by
    decide +kernel +zetaReduce
  have hcall : ((powerUp.after beforeCall).step 0).1 = .ok (.call 0x200) ∧
      called.state.pc = (powerUp.after beforeCall).state.pc ∧
      (powerUp.after beforeCall).history = [] := by
    decide +kernel +zetaReduce
  obtain ⟨hran, hsum, hspares⟩ := hjump
  obtain ⟨hran', hpc, hhistory⟩ := hcall
  obtain ⟨hsame, -, hstuck⟩ := step_stalls_or_progresses beforeJump 0 hran
  obtain ⟨-, hrecords, -⟩ := step_stalls_or_progresses beforeCall 0 hran'
  have hidle : (Instruction.jumpOffset 0x1FE).Idles (powerUp.after beforeJump).state
      (powerUp.after beforeJump).keys := .jumpOffset hsum
  refine ⟨⟨hran, (hsame.mpr hidle).1, hstuck hidle meanwhile hspares 7⟩, hran', hpc, ?_⟩
  rw [(hrecords nofun).1, hhistory]
  rfl

end Machine

end ChipEight
