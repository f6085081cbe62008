import Mathlib.Data.List.Basic
import ChipEight.Host
import ChipEight.Machine.Command

/-!
# How often a run ticks

A run ticks the timers once in every period of its instructions, so the number of ticks is that of
whole periods. The period is the quotient of the two rates, rounded down. So a second's worth of
instructions brings the timer rate or more ticks, though less than twice as many, and exactly the
timer rate where the remainder that was cut off is less than the period.
-/

namespace ChipEight.Host

/-- Tick the timers if the count of executed instructions is a multiple of the period, and tell
which operations that took. -/
def tracedTickAt (period executed : Nat) (m : Machine) : Machine × List Command :=
  if executed % period = 0 then (m.tick, [.tick]) else (m, [])

/-- Run up to `remaining` more instructions after the first `executed`, and tell which operations
that took, in their order. -/
def tracedFrom (period : Nat) (noise : Nat → UInt8) :
    (remaining executed : Nat) → Machine → Report × List Command
  | 0, executed, m => (⟨.cycleLimit, executed, m⟩, [])
  | remaining + 1, executed, m =>
    if m.isAwaitingKey then (⟨.awaitingKey, executed, m⟩, [])
    else
      match m.step (noise executed) with
      | (.error fault, halted) => (⟨.faulted fault, executed, halted⟩, [.step (noise executed)])
      | (.ok ins, next) =>
        let ticked := tracedTickAt period (executed + 1) next
        let round := .step (noise executed) :: ticked.2
        if ins = .jump m.state.pc then (⟨.spinning m.state.pc, executed + 1, ticked.1⟩, round)
        else
          let rest := tracedFrom period noise remaining (executed + 1) ticked.1
          (rest.1, round ++ rest.2)

/-- A run with the operations that it takes. -/
def traced (pace : Pace) (cycles : Nat) (noise : Nat → UInt8) (m : Machine) :
    Report × List Command :=
  tracedFrom pace.period noise cycles 0 m

/-! ### Tracing -/

private theorem fst_tracedTickAt (period executed : Nat) (m : Machine) :
    (tracedTickAt period executed m).1 = tickAt period executed m := by
  unfold tracedTickAt tickAt
  split <;> rfl

private theorem after_tracedTickAt (period executed : Nat) (m : Machine) :
    m.after (tracedTickAt period executed m).2 = (tracedTickAt period executed m).1 := by
  unfold tracedTickAt
  split <;> rfl

private theorem count_tracedTickAt (period executed : Nat) (m : Machine) :
    (tracedTickAt period (executed + 1) m).2.count .tick + executed / period =
      (executed + 1) / period := by
  rw [tracedTickAt, Nat.succ_div]
  simp only [Nat.dvd_iff_mod_eq_zero]
  split
  · exact Nat.add_comm _ _
  · exact Nat.zero_add _

/-- Tracing a run does not change it. -/
theorem fst_tracedFrom (period : Nat) (noise : Nat → UInt8) (remaining executed : Nat)
    (m : Machine) :
    (tracedFrom period noise remaining executed m).1 =
      runFrom period noise remaining executed m := by
  induction remaining generalizing executed m with
  | zero => rfl
  | succ k ih =>
    rw [tracedFrom, runFrom]
    split
    · rfl
    · rcases m.step (noise executed) with ⟨fault | ins, next⟩
      · rfl
      · simp only [fst_tracedTickAt]
        split
        · rfl
        · exact ih (executed + 1) _

/-- The operations of a run lead to the machine that it leaves. -/
theorem after_tracedFrom (period : Nat) (noise : Nat → UInt8) (remaining executed : Nat)
    (m : Machine) :
    m.after (tracedFrom period noise remaining executed m).2 =
      (tracedFrom period noise remaining executed m).1.machine := by
  induction remaining generalizing executed m with
  | zero => rfl
  | succ k ih =>
    rw [tracedFrom]
    split
    · rfl
    · split
      · next fault halted hs => rw [Machine.after_cons, Machine.perform_step, hs, Machine.after_nil]
      · next ins next hs =>
        have hround : m.after
            (.step (noise executed) :: (tracedTickAt period (executed + 1) next).2) =
              (tracedTickAt period (executed + 1) next).1 := by
          rw [Machine.after_cons, Machine.perform_step, hs, after_tracedTickAt]
        simp only
        split
        · exact hround
        · rw [Machine.after_append, hround, ih]

/-- The ticks of a run are as many as it has completed periods. -/
theorem count_tracedFrom (period : Nat) (noise : Nat → UInt8) (remaining executed : Nat)
    (m : Machine) :
    (tracedFrom period noise remaining executed m).2.count .tick + executed / period =
      (tracedFrom period noise remaining executed m).1.executed / period := by
  induction remaining generalizing executed m with
  | zero => exact Nat.zero_add _
  | succ k ih =>
    rw [tracedFrom]
    split
    · exact Nat.zero_add _
    · split
      · exact Nat.zero_add _
      · next ins next hs =>
        have hround := count_tracedTickAt period executed next
        have hstep : Command.step (noise executed) ≠ .tick := nofun
        simp only
        split
        · rw [List.count_cons_of_ne hstep, hround]
        · have hrest := ih (executed + 1) (tracedTickAt period (executed + 1) next).1
          rw [List.count_append, List.count_cons_of_ne hstep]
          simp only
          omega

/-! ### Rates -/

private theorem div_div_eq {a b : Nat} (h : 0 < a / b) : a / (a / b) = b + a % b / (a / b) :=
  calc
    a / (a / b) = (a / b * b + a % b) / (a / b) := by rw [Nat.div_add_mod']
    _ = b + a % b / (a / b) := Nat.mul_add_div h b (a % b)

variable {p : Pace}

private theorem Pace.period_of_le (hrate : 0 < p.timerRate) (h : p.timerRate ≤ p.clockSpeed) :
    p.period = p.clockSpeed / p.timerRate :=
  Nat.max_eq_right (Nat.div_pos h hrate)

private theorem Pace.period_of_lt (h : p.clockSpeed < p.timerRate) : p.period = 1 := by
  rw [period, Nat.div_eq_of_lt h]
  rfl

private theorem Pace.clockSpeed_div_period (hrate : 0 < p.timerRate)
    (h : p.timerRate ≤ p.clockSpeed) :
    p.clockSpeed / p.period = p.timerRate + p.clockSpeed % p.timerRate / p.period := by
  rw [period_of_le hrate h, div_div_eq (Nat.div_pos h hrate)]

private theorem Pace.mod_div_period_lt (hrate : 0 < p.timerRate) :
    p.clockSpeed % p.timerRate / p.period < p.timerRate :=
  Nat.lt_of_le_of_lt (Nat.div_le_self _ _) (Nat.mod_lt _ hrate)

/-- The operations of a run lead to the machine that it leaves and hold a tick for every whole
period of its instructions. A run of a second's instructions, then, ticks at the timer rate or
faster, but less than twice as fast. It keeps the rate exactly where the remainder of the two rates
is less than their quotient. Only a clock slower than the timers falls short of their rate, with a
tick for every instruction. -/
theorem ticks_of_run (pace : Pace) (hrate : 0 < pace.timerRate) (limit : Nat)
    (noise : Nat → UInt8) (m : Machine) :
    let report := (traced pace limit noise m).1
    let operations := (traced pace limit noise m).2
    let period := max 1 (pace.clockSpeed / pace.timerRate)
    let perSecond := pace.clockSpeed / period
    report = run pace limit noise m ∧
      m.after operations = report.machine ∧
      operations.count .tick = report.executed / period ∧
      (report.executed = pace.clockSpeed → operations.count .tick = perSecond) ∧
      (pace.timerRate ≤ pace.clockSpeed →
        pace.timerRate ≤ perSecond ∧ perSecond < 2 * pace.timerRate ∧
          (perSecond = pace.timerRate ↔
            pace.clockSpeed % pace.timerRate < pace.clockSpeed / pace.timerRate)) ∧
      (pace.clockSpeed < pace.timerRate → perSecond = pace.clockSpeed) := by
  intro report operations period perSecond
  have hcount : operations.count .tick = report.executed / period := by
    have h := count_tracedFrom pace.period noise limit 0 m
    rwa [Nat.zero_div, Nat.add_zero] at h
  refine ⟨fst_tracedFrom .., after_tracedFrom .., hcount, ?_, ?_, ?_⟩
  · intro hsecond
    rw [hcount, hsecond]
  · intro hle
    have hsum : perSecond = pace.timerRate + pace.clockSpeed % pace.timerRate / pace.period :=
      Pace.clockSpeed_div_period hrate hle
    rw [hsum]
    refine ⟨Nat.le_add_right _ _, ?_, ?_⟩
    · rw [Nat.two_mul]
      exact Nat.add_lt_add_left (Pace.mod_div_period_lt hrate) _
    · rw [Nat.add_eq_left, Nat.div_eq_zero_iff_lt pace.period_pos, Pace.period_of_le hrate hle]
  · intro hlt
    have hone : perSecond = pace.clockSpeed / 1 := by rw [← Pace.period_of_lt hlt]; rfl
    rw [hone, Nat.div_one]

/-- A program that counts in a register without an end, with eight instructions and three ticks
asked for in a second. The period is two instructions, and the second brings four ticks. -/
theorem ticks_of_run_of_loop :
    let rom := [0x70, 0x01, 0x12, 0x00]
    let fresh := Machine.powerUp.after [.load rom]
    let pace : Pace := ⟨8, 3⟩
    let report := (traced pace 8 (fun _ ↦ 0) fresh).1
    let operations := (traced pace 8 (fun _ ↦ 0) fresh).2
    Machine.ofRom rom = .ok fresh ∧ report.executed = pace.clockSpeed ∧
      operations.count .tick = 4 ∧ fresh.after operations = report.machine ∧
      pace.timerRate < 4 ∧ 4 < 2 * pace.timerRate := by
  intro rom fresh pace report operations
  have hexec : report.executed = pace.clockSpeed := by decide +kernel +zetaReduce
  have hfour : pace.clockSpeed / max 1 (pace.clockSpeed / pace.timerRate) = 4 := by
    decide +zetaReduce
  obtain ⟨-, hafter, -, hsecond, hfaster, -⟩ :=
    ticks_of_run pace (by decide) 8 (fun _ ↦ 0) fresh
  obtain ⟨hle, hlt, hiff⟩ := hfaster (by decide)
  rw [hfour] at hsecond hle hlt hiff
  refine ⟨rfl, hexec, hsecond hexec, hafter, ?_, hlt⟩
  exact Nat.lt_of_le_of_ne hle fun heq ↦ absurd (hiff.mp heq.symm) (by decide)

end ChipEight.Host
