import ChipEight.Host
import ChipEight.Machine.Command

/-!
# Runs in two parts

A run that has reached its limit can be taken up again, and then it ends as if it had had the
greater limit from the start. The second part counts its rounds from zero, so the ticks of the
timers fall on the same rounds only where the first part is a whole number of periods long.
-/

namespace ChipEight.Host

/-- The report with some rounds before it counted as well. -/
def Report.countFrom (earlier : Nat) (r : Report) : Report :=
  { r with executed := earlier + r.executed }

variable {period : Nat} {noise : Nat → UInt8} {m : Machine}

private theorem tickAt_add_of_dvd {earlier : Nat} (h : period ∣ earlier) (executed : Nat)
    (m : Machine) :
    tickAt period (earlier + executed) m = tickAt period executed m := by
  unfold tickAt
  rw [Nat.add_mod, Nat.mod_eq_zero_of_dvd h, Nat.zero_add, Nat.mod_mod]

/-- A run whose count starts some periods later goes the same way. -/
theorem runFrom_add_executed {earlier : Nat} (h : period ∣ earlier) (noise : Nat → UInt8)
    (remaining executed : Nat) (m : Machine) :
    runFrom period noise remaining (earlier + executed) m =
      (runFrom period (fun k ↦ noise (earlier + k)) remaining executed m).countFrom earlier := by
  induction remaining generalizing executed m with
  | zero => rfl
  | succ k ih =>
    rw [runFrom, runFrom]
    split
    · rfl
    · cases m.step (noise (earlier + executed)) with
      | mk answer next =>
        cases answer with
        | error fault => rfl
        | ok ins =>
          simp only [Nat.add_assoc earlier, tickAt_add_of_dvd h, ih]
          split
          · rfl
          · rfl

/-- A run that reaches its limit has gone through all rounds, and with a greater limit it goes on
from there. -/
theorem runFrom_add {executed a : Nat} (h : (runFrom period noise a executed m).stop = .cycleLimit)
    (b : Nat) :
    (runFrom period noise a executed m).executed = executed + a ∧
      runFrom period noise (a + b) executed m =
        runFrom period noise b (executed + a) (runFrom period noise a executed m).machine := by
  induction a generalizing executed m with
  | zero => exact ⟨rfl, by rw [Nat.zero_add]; rfl⟩
  | succ a ih =>
    -- The first round ends neither of the two runs, since it would end them for the same reason.
    rw [runFrom] at h
    rw [Nat.succ_add, runFrom, runFrom]
    split at h
    · cases h
    · next hw =>
      rw [if_neg hw, if_neg hw]
      cases hs : m.step (noise executed) with
      | mk answer next =>
        rw [hs] at h
        cases answer with
        | error fault => cases h
        | ok ins =>
          simp only at h ⊢
          split at h
          · cases h
          · next hj =>
            rw [if_neg hj, if_neg hj]
            have hrest := ih h
            rw [Nat.add_assoc, Nat.add_comm 1 a] at hrest
            exact hrest

/-- A run can be split where the timers have just been ticked. If a run with a limit that is a whole
number of periods reaches it, then a second run of the machine that it leaves, which draws the bytes
that come next, stops for the same reason and leaves the same machine as one run with both limits
added up, and the two have run as many instructions as that one. -/
theorem run_splits_at_tick {pace : Pace} {a : Nat} (ha : pace.period ∣ a) (b : Nat)
    (noise : Nat → UInt8) (m : Machine) (h : (run pace a noise m).stop = .cycleLimit) :
    let first := run pace a noise m
    let second := run pace b (fun k ↦ noise (first.executed + k)) first.machine
    let whole := run pace (a + b) noise m
    second.machine = whole.machine ∧ second.stop = whole.stop ∧
      first.executed + second.executed = whole.executed := by
  intro first second whole
  obtain ⟨hcount, hwhole⟩ := runFrom_add h b
  have hfirst : first.executed = a := hcount.trans (Nat.zero_add a)
  have hsecond : whole = second.countFrom a := by
    calc whole
      _ = runFrom pace.period noise b (0 + a) first.machine := hwhole
      _ = runFrom pace.period noise b (a + 0) first.machine := by rw [Nat.zero_add, Nat.add_zero]
      _ = (run pace b (fun k ↦ noise (a + k)) first.machine).countFrom a :=
        runFrom_add_executed ha noise b 0 first.machine
      _ = second.countFrom a := by rw [← hfirst]
  rw [hsecond, hfirst]
  exact ⟨rfl, rfl, rfl⟩

/-- A loop that draws bytes into the delay timer is stopped after two periods of two rounds each and
taken up again for three more rounds. -/
theorem run_splits_at_tick_of_drawing_loop :
    let rom : List UInt8 := [0xC0, 0xFF, 0xF0, 0x15, 0x12, 0x00]
    let pace : Pace := ⟨120, 60⟩
    let bytes : Nat → UInt8 := fun k ↦ UInt8.ofNat (k + 7)
    let fresh := (Machine.powerUp.perform (.load rom)).2
    let first := run pace 4 bytes fresh
    let second := run pace 3 (fun k ↦ bytes (first.executed + k)) first.machine
    pace.period ∣ 4 ∧ first.stop = .cycleLimit ∧
      second.machine = (run pace 7 bytes fresh).machine ∧ second.stop = .cycleLimit := by
  intro rom pace bytes fresh first second
  have ha : pace.period ∣ 4 := by decide +kernel +zetaReduce
  have h : first.stop = .cycleLimit := by decide +kernel +zetaReduce
  obtain ⟨hmachine, hstop, -⟩ := run_splits_at_tick ha 3 bytes fresh h
  have hwhole : (run pace 7 bytes fresh).stop = .cycleLimit := by decide +kernel +zetaReduce
  exact ⟨ha, h, hmachine, hstop.trans hwhole⟩

-- In the middle of a period, the second part would miss the tick that is due after its first round.
example :
    let rom : List UInt8 := [0x60, 0x05, 0xF0, 0x15]
    let fresh := (Machine.powerUp.perform (.load rom)).2
    let first := run ⟨120, 60⟩ 1 (fun _ ↦ 0) fresh
    let second := run ⟨120, 60⟩ 1 (fun _ ↦ 0) first.machine
    second.machine.state.delay = 5 ∧
      (run ⟨120, 60⟩ 2 (fun _ ↦ 0) fresh).machine.state.delay = 4 := by
  decide +kernel

end ChipEight.Host
