import ChipEight.Host
import ChipEight.Machine.Command

/-!
# Rounds

The host loop without its early exits, as lists of commands. A round runs one instruction and, if
its number counted from one is a multiple of the period, ticks the timers.
-/

namespace ChipEight.Host

/-- The commands of the round after the first `executed`. -/
def round (period : Nat) (noise : Nat → UInt8) (executed : Nat) : List Command :=
  .step (noise executed) :: if (executed + 1) % period = 0 then [.tick] else []

/-- The commands of `count` rounds after the first `executed`. -/
def rounds (period : Nat) (noise : Nat → UInt8) : (executed count : Nat) → List Command
  | _, 0 => []
  | executed, count + 1 =>
    round period noise executed ++ rounds period noise (executed + 1) count

/-- A round steps the machine and ticks its timers when they are due. -/
theorem after_round (period : Nat) (noise : Nat → UInt8) (executed : Nat) (m : Machine) :
    m.after (round period noise executed) =
      tickAt period (executed + 1) (m.step (noise executed)).2 := by
  unfold round tickAt
  split
  · rw [Machine.after_cons, Machine.perform_step]
    rfl
  · rw [Machine.after_cons, Machine.perform_step]
    rfl

/-- Rounds can be carried out in two parts. -/
theorem rounds_add (period : Nat) (noise : Nat → UInt8) (executed a b : Nat) :
    rounds period noise executed (a + b) =
      rounds period noise executed a ++ rounds period noise (executed + a) b := by
  induction a generalizing executed with
  | zero => simp [rounds]
  | succ a ih =>
    rw [Nat.add_right_comm, rounds, rounds, ih, List.append_assoc]
    congr 3
    omega

end ChipEight.Host
