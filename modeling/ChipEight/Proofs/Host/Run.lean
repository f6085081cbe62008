import ChipEight.Host.Rounds
import ChipEight.Proofs.Machine.Stall

/-!
# Runs of the host loop

How a run ends, in terms of the rounds it has gone through: at its limit, at a wait for a key, right
after a jump to itself, or at a step that fails, which is no longer part of a round. Every end but
the one at the limit leaves the machine stalled. So the rounds that an early exit leaves out could
at most have counted the timers down.
-/

namespace ChipEight

namespace Machine

/-- The second machine is the first with its timers counted down further and otherwise the same. -/
structure CountsDownTo (m later : Machine) : Prop where
  eq : later =
    { m with state := { m.state with delay := later.state.delay, sound := later.state.sound } }
  delay_le : later.state.delay ≤ m.state.delay
  sound_le : later.state.sound ≤ m.state.sound

private theorem CountsDownTo.refl (m : Machine) : m.CountsDownTo m :=
  ⟨rfl, UInt8.le_refl _, UInt8.le_refl _⟩

private theorem CountsDownTo.trans {a b c : Machine} (hab : a.CountsDownTo b)
    (hbc : b.CountsDownTo c) :
    a.CountsDownTo c where
  eq := by
    rw [hbc.eq, hab.eq]
  delay_le := UInt8.le_trans hbc.delay_le hab.delay_le
  sound_le := UInt8.le_trans hbc.sound_le hab.sound_le

private theorem countdown_le (timer : UInt8) : (if timer = 0 then 0 else timer - 1) ≤ timer := by
  rw [UInt8.le_iff_toNat_le, State.toNat_countdown]
  exact Nat.sub_le ..

private theorem countsDownTo_tick (m : Machine) : m.CountsDownTo m.tick := by
  unfold tick
  split
  · exact .refl m
  · exact ⟨rfl, countdown_le _, countdown_le _⟩

end Machine

namespace Host

/-! ### Rounds on a stalled machine -/

private theorem countsDownTo_tickAt (period executed : Nat) (m : Machine) :
    m.CountsDownTo (tickAt period executed m) := by
  unfold tickAt
  split
  · exact m.countsDownTo_tick
  · exact .refl m

/-- A tick that may be due leaves the fault as it is. -/
theorem fault_tickAt (period executed : Nat) (m : Machine) :
    (tickAt period executed m).fault = m.fault := by
  unfold tickAt Machine.tick
  split
  · split <;> rfl
  · rfl

/-- A tick that may be due leaves a stalled machine stalled. -/
theorem stalled_tickAt {m : Machine} (h : m.Stalled) (period executed : Nat) :
    (tickAt period executed m).Stalled := by
  unfold tickAt
  split
  · exact h.tick
  · exact h

/-- A round does no more to a stalled machine than its tick. -/
theorem after_round_of_stalled {m : Machine} (h : m.Stalled) (period : Nat) (noise : Nat → UInt8)
    (executed : Nat) :
    m.after (round period noise executed) = tickAt period (executed + 1) m := by
  rw [after_round, h]

/-- The first of some rounds, and then the others. -/
theorem after_rounds_succ (period : Nat) (noise : Nat → UInt8) (executed count : Nat)
    (m : Machine) :
    m.after (rounds period noise executed (count + 1)) =
      (m.after (round period noise executed)).after (rounds period noise (executed + 1) count) :=
  m.after_append ..

/-- All but the last of some rounds, and then that one. -/
theorem after_rounds_succ_last (period : Nat) (noise : Nat → UInt8) (executed count : Nat)
    (m : Machine) :
    m.after (rounds period noise executed (count + 1)) =
      (m.after (rounds period noise executed count)).after
        (round period noise (executed + count)) := by
  rw [rounds_add, m.after_append, after_rounds_succ]
  rfl

/-- Rounds count the timers of a stalled machine down and leave it stalled. -/
theorem after_rounds_of_stalled {m : Machine} (h : m.Stalled) (period : Nat) (noise : Nat → UInt8)
    (executed count : Nat) :
    m.CountsDownTo (m.after (rounds period noise executed count)) ∧
      (m.after (rounds period noise executed count)).Stalled := by
  induction count generalizing m executed with
  | zero => exact ⟨.refl m, h⟩
  | succ k ih =>
    rw [after_rounds_succ, after_round_of_stalled h]
    obtain ⟨hc, hs⟩ := ih (stalled_tickAt h period (executed + 1)) (executed + 1)
    exact ⟨(countsDownTo_tickAt period (executed + 1) m).trans hc, hs⟩

/-- Rounds leave a halted machine as it is, timers included. -/
theorem after_rounds_of_fault {m : Machine} {fault : Fault} (h : m.fault = some fault)
    (period : Nat) (noise : Nat → UInt8) (executed count : Nat) :
    m.after (rounds period noise executed count) = m := by
  induction count generalizing executed with
  | zero => rfl
  | succ k ih =>
    have ht : tickAt period (executed + 1) m = m := by
      unfold tickAt
      rw [Machine.tick_of_fault h, ite_self]
    rw [after_rounds_succ, after_round_of_stalled (Machine.stalled_of_fault h), ht, ih]

/-- If a machine is not halted after some rounds, it was not halted before them. -/
theorem fault_of_after_rounds {m : Machine} {period : Nat} {noise : Nat → UInt8}
    {executed count : Nat} (h : (m.after (rounds period noise executed count)).fault = none) :
    m.fault = none := by
  cases hf : m.fault with
  | none => rfl
  | some fault =>
    rw [after_rounds_of_fault hf, hf] at h
    cases h

/-! ### The ends of runs -/

/-- The ways in which a run of at most `remaining` rounds after the first `executed` can end. -/
inductive Ending (period : Nat) (noise : Nat → UInt8) (remaining executed : Nat) (m : Machine) :
    Report → Prop where
  /-- All rounds have been gone through. -/
  | cycleLimit :
      Ending period noise remaining executed m
        ⟨.cycleLimit, executed + remaining, m.after (rounds period noise executed remaining)⟩
  /-- The machine waits for a key before the next round. -/
  | awaitingKey (k : Nat) (hk : k < remaining)
      (h : (m.after (rounds period noise executed k)).isAwaitingKey = true) :
      Ending period noise remaining executed m
        ⟨.awaitingKey, executed + k, m.after (rounds period noise executed k)⟩
  /-- The last round has run a jump to itself. -/
  | spinning (k : Nat) (hk : k < remaining) (address : UInt16) (next : Machine)
      (hpc : (m.after (rounds period noise executed k)).state.pc = address)
      (h : (m.after (rounds period noise executed k)).step (noise (executed + k)) =
        (.ok (.jump address), next)) :
      Ending period noise remaining executed m
        ⟨.spinning address, executed + (k + 1), m.after (rounds period noise executed (k + 1))⟩
  /-- The step of the next round fails. -/
  | faulted (k : Nat) (hk : k < remaining) (fault : Fault) (halted : Machine)
      (h : (m.after (rounds period noise executed k)).step (noise (executed + k)) =
        (.error fault, halted)) :
      Ending period noise remaining executed m ⟨.faulted fault, executed + k, halted⟩

variable {period : Nat} {noise : Nat → UInt8} {remaining executed : Nat} {m : Machine} {r : Report}

private theorem Ending.afterRound
    (h : Ending period noise remaining (executed + 1) (m.after (round period noise executed)) r) :
    Ending period noise (remaining + 1) executed m r := by
  have hr (k : Nat) := after_rounds_succ period noise executed k m
  have he (k : Nat) : executed + 1 + k = executed + (k + 1) := by omega
  cases h with
  | cycleLimit =>
    rw [he, ← hr]
    exact .cycleLimit
  | awaitingKey k hk hw =>
    rw [← hr] at hw ⊢
    rw [he]
    exact .awaitingKey (k + 1) (Nat.succ_lt_succ hk) hw
  | spinning k hk address next hpc hs =>
    rw [← hr] at hpc hs
    rw [he] at hs
    rw [← hr, he]
    exact .spinning (k + 1) (Nat.succ_lt_succ hk) address next hpc hs
  | faulted k hk fault halted hs =>
    rw [← hr, he] at hs
    rw [he]
    exact .faulted (k + 1) (Nat.succ_lt_succ hk) fault halted hs

/-- Every run ends in one of these ways. -/
theorem ending_runFrom (period : Nat) (noise : Nat → UInt8) (remaining executed : Nat)
    (m : Machine) :
    Ending period noise remaining executed m (runFrom period noise remaining executed m) := by
  induction remaining generalizing executed m with
  | zero => exact .cycleLimit
  | succ k ih =>
    have ha := after_round period noise executed m
    rw [runFrom]
    split
    · next hw => exact .awaitingKey 0 k.succ_pos hw
    · split
      · next fault halted hs => exact .faulted 0 k.succ_pos fault halted hs
      · next ins next hs =>
        rw [hs] at ha
        change m.after (round period noise executed) = tickAt period (executed + 1) next at ha
        rw [← ha]
        split
        · next hi =>
          subst hi
          have h1 : m.after (rounds period noise executed 1) =
              m.after (round period noise executed) := after_rounds_succ ..
          rw [← h1]
          exact .spinning 0 k.succ_pos m.state.pc next rfl hs
        · exact (ih (executed + 1) _).afterRound

private theorem Ending.stalled (h : Ending period noise remaining executed m r)
    (hr : r.stop ≠ .cycleLimit) : r.machine.Stalled := by
  cases h with
  | cycleLimit => exact absurd rfl hr
  | awaitingKey k hk hw => exact Machine.stalled_of_isAwaitingKey hw
  | spinning k hk address next hpc hs =>
    subst hpc
    have hstall := Machine.stalled_of_jump hs
    rw [after_rounds_succ_last, after_round_of_stalled hstall]
    exact stalled_tickAt hstall period (executed + k + 1)
  | faulted k hk fault halted hs =>
    obtain ⟨recorded, hf⟩ := Machine.fault_of_step_eq_error hs
    exact Machine.stalled_of_fault hf

/-- The rounds that a run left out could at most have counted the timers down, and not even that
after a fault. -/
theorem Ending.countsDownTo (h : Ending period noise remaining executed m r) :
    r.machine.CountsDownTo (m.after (rounds period noise executed remaining)) ∧
      (r.stop = .cycleLimit ∨ (∃ fault, r.stop = .faulted fault) →
        m.after (rounds period noise executed remaining) = r.machine) := by
  have hstall := h.stalled
  cases h with
  | cycleLimit => exact ⟨.refl _, fun _ ↦ rfl⟩
  | awaitingKey k hk hw =>
    obtain ⟨rest, rfl⟩ := Nat.exists_eq_add_of_le (Nat.le_of_lt hk)
    rw [rounds_add, m.after_append]
    exact ⟨(after_rounds_of_stalled (hstall nofun) ..).1, nofun⟩
  | spinning k hk address next hpc hs =>
    obtain ⟨rest, rfl⟩ := Nat.exists_eq_add_of_le (show k + 1 ≤ remaining from hk)
    rw [rounds_add period noise executed (k + 1) rest, m.after_append]
    exact ⟨(after_rounds_of_stalled (hstall nofun) ..).1, nofun⟩
  | faulted k hk fault halted hs =>
    obtain ⟨recorded, hf⟩ := Machine.fault_of_step_eq_error hs
    obtain ⟨rest, rfl⟩ := Nat.exists_eq_add_of_le (show k + 1 ≤ remaining from hk)
    have hround : m.after (rounds period noise executed (k + 1)) = halted := by
      rw [after_rounds_succ_last, after_round, hs, tickAt, Machine.tick_of_fault hf, ite_self]
    have hall : m.after (rounds period noise executed (k + 1 + rest)) = halted := by
      rw [rounds_add, m.after_append, hround, after_rounds_of_fault hf]
    rw [hall]
    exact ⟨.refl halted, fun _ ↦ rfl⟩

/-- The early exits of a run are sound. Going through all rounds instead would have led to the same
machine but for its timers, which could only have been lower, and to the very same machine where the
run stopped at its limit or at a fault. -/
theorem run_countsDownTo_rounds (pace : Pace) (cycles : Nat) (noise : Nat → UInt8) (m : Machine) :
    let r := run pace cycles noise m
    let unbroken := m.after (rounds pace.period noise 0 cycles)
    r.machine.CountsDownTo unbroken ∧
      (r.stop = .cycleLimit ∨ (∃ fault, r.stop = .faulted fault) → unbroken = r.machine) := by
  intro r unbroken
  exact (ending_runFrom pace.period noise cycles 0 m).countsDownTo

end Host

end ChipEight
