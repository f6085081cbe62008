import ChipEight.Machine

/-!
# The host loop

A host runs a machine for a number of instructions and ticks its timers once in every so many of
them. It stops early when nothing more can happen: on a fault, on a jump to itself, and when the
program waits for a key and none is down.
-/

namespace ChipEight.Host

/-- Instructions and timer ticks per second. -/
structure Pace where
  clockSpeed : Nat := 540
  timerRate : Nat := 60

/-- The number of instructions between two ticks, a whole number and at least one. -/
def Pace.period (p : Pace) : Nat := max 1 (p.clockSpeed / p.timerRate)

/-- Why a run stopped. -/
inductive Stop where
  /-- As many instructions as asked for have run. -/
  | cycleLimit
  /-- The instruction at this address jumps to itself. -/
  | spinning (address : UInt16)
  /-- The program waits for a key and none is down. -/
  | awaitingKey
  /-- The next instruction faulted. -/
  | faulted (fault : Fault)
  deriving DecidableEq

/-- How a run ended: why, after how many instructions, and with which machine. -/
structure Report where
  stop : Stop
  executed : Nat
  machine : Machine
  deriving DecidableEq

/-- Tick the timers if the count of executed instructions is a multiple of the period. -/
def tickAt (period executed : Nat) (m : Machine) : Machine :=
  if executed % period = 0 then m.tick else m

/-- Run up to `remaining` more instructions after the first `executed`. Instruction number `k`,
counted from zero, may draw the byte `noise k`. -/
def runFrom (period : Nat) (noise : Nat → UInt8) :
    (remaining executed : Nat) → Machine → Report
  | 0, executed, m => ⟨.cycleLimit, executed, m⟩
  | remaining + 1, executed, m =>
    if m.isAwaitingKey then ⟨.awaitingKey, executed, m⟩
    else
      match m.step (noise executed) with
      | (.error fault, halted) => ⟨.faulted fault, executed, halted⟩
      | (.ok ins, next) =>
        let next := tickAt period (executed + 1) next
        if ins = .jump m.state.pc then ⟨.spinning m.state.pc, executed + 1, next⟩
        else runFrom period noise remaining (executed + 1) next

/-- Run up to `cycles` instructions. -/
def run (pace : Pace) (cycles : Nat) (noise : Nat → UInt8) (m : Machine) : Report :=
  runFrom pace.period noise cycles 0 m

/-- The period is a possible divisor. -/
theorem Pace.period_pos (p : Pace) : 0 < p.period := by
  simp only [period]
  omega

end ChipEight.Host
