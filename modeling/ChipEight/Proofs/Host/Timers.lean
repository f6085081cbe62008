import Mathlib.Data.List.Basic
import ChipEight.Proofs.Host.StepBack
import ChipEight.Proofs.Host.Stopping
import ChipEight.Proofs.Instruction.Footprint

/-!
# Timers in a run

The timers as a count. A round on a machine that it does not halt runs one instruction, which may
load a timer, and then counts the timers down if its number is a multiple of the period. So over
rounds in which nothing loads a timer it loses as much as there are multiples of the period among
their numbers, down to zero. What a run leaves in a timer is therefore determined by when it was
last loaded, with what, and how many instructions ran in all.
-/

namespace ChipEight

/-- The two timers. -/
inductive Timer where
  | delay
  | sound

namespace Timer

/-- What a timer holds. -/
def value : Timer → State → UInt8
  | delay, s => s.delay
  | sound, s => s.sound

/-- The register that an instruction loads into a timer, if it does. -/
def source? : Timer → Instruction → Option Register
  | delay, .setDelay x => some x
  | sound, .setSound x => some x
  | _, _ => none

/-- The value that was loaded into a timer, if the instruction that ran did that. -/
def loaded? (timer : Timer) (x : Execution) : Option UInt8 :=
  (timer.source? x.ins).map x.state.reg

/-- After an instruction, a timer holds what has been loaded or else what it held. -/
theorem value_of_execute {ins : Instruction} {s t : State} {keys : Keypad} {noise : UInt8}
    (timer : Timer) (h : ins.execute s keys noise = .ok t) :
    timer.value t = (timer.loaded? ⟨ins, s⟩).getD (timer.value s) := by
  simp only [loaded?]
  unfold source?
  split
  · cases h
    rfl
  · cases h
    rfl
  · next hdelay hsound =>
    have hkept := Instruction.footprint_of_execute h
    cases timer with
    | delay =>
      rcases hkept.delay with hd | ⟨x, rfl⟩
      · exact hd
      · exact (hdelay x rfl rfl).elim
    | sound =>
      rcases hkept.sound with hs | ⟨x, rfl⟩
      · exact hs
      · exact (hsound x rfl rfl).elim

private theorem toNat_value_tick (timer : Timer) (s : State) :
    (timer.value s.tick).toNat = (timer.value s).toNat - 1 := by
  cases timer with
  | delay => exact State.toNat_countdown s.delay
  | sound => exact State.toNat_countdown s.sound

private theorem value_initial (timer : Timer) (memory : Memory) :
    timer.value { State.initial with memory } = 0 := by
  cases timer with
  | delay => rfl
  | sound => rfl

end Timer

namespace Host

variable {period : Nat} {noise : Nat → UInt8} {executed count : Nat} {m : Machine}

/-! ### One round -/

private theorem toNat_value_tickAt (timer : Timer) (hf : m.fault = none) :
    (timer.value (tickAt period (executed + 1) m).state).toNat =
      (timer.value m.state).toNat - ((executed + 1) / period - executed / period) := by
  have hgrowth : (executed + 1) / period - executed / period =
      if (executed + 1) % period = 0 then 1 else 0 := by
    simp only [Nat.succ_div, Nat.add_sub_cancel_left, Nat.dvd_iff_mod_eq_zero]
  rw [hgrowth, tickAt]
  split
  · rw [Machine.tick_of_fault_eq_none hf]
    exact timer.toNat_value_tick m.state
  · rfl

private theorem executions_round (period : Nat) (noise : Nat → UInt8) (executed : Nat)
    (m : Machine) :
    m.executions (round period noise executed) =
      ((m.step (noise executed)).1.toOption.map (⟨·, m.state⟩)).toList := by
  unfold round
  rw [Machine.executions, Machine.ran?_exchange_step]
  split <;> exact List.append_nil _

/-- In a round that leaves a machine running, one instruction runs. A timer then holds what it has
loaded, or else what was there, counted down if the tick was due. -/
theorem exists_execution_of_round
    (h : (m.after (round period noise executed)).fault = none) :
    ∃ x, m.executions (round period noise executed) = [x] ∧
      ∀ timer : Timer, (timer.value (m.after (round period noise executed)).state).toNat =
        ((timer.loaded? x).getD (timer.value m.state)).toNat -
          ((executed + 1) / period - executed / period) := by
  rw [after_round, fault_tickAt] at h
  rw [executions_round, after_round]
  rcases m.step_cases (noise executed) with
    ⟨fault, hf, hs⟩ | ⟨fault, hf, ha, hs⟩ | ⟨ins, next, hf, hc, he, hs⟩
  · rw [hs, hf] at h
    cases h
  · rw [hs] at h
    cases h
  · rw [hs] at h ⊢
    refine ⟨⟨ins, m.state⟩, rfl, ?_⟩
    intro timer
    rw [toNat_value_tickAt timer h, Machine.state_advanceTo, timer.value_of_execute he]

/-! ### Rounds in a row -/

private theorem sub_growth (value period executed k : Nat) :
    value - ((executed + 1) / period - executed / period) -
        ((executed + 1 + k) / period - (executed + 1) / period) =
      value - ((executed + (k + 1)) / period - executed / period) := by
  have hfirst : executed / period ≤ (executed + 1) / period :=
    Nat.div_le_div_right (Nat.le_add_right executed 1)
  have hothers : (executed + 1) / period ≤ (executed + 1 + k) / period :=
    Nat.div_le_div_right (Nat.le_add_right (executed + 1) k)
  rw [← Nat.add_assoc, Nat.add_right_comm executed k 1]
  omega

private theorem length_executions_rounds
    (h : (m.after (rounds period noise executed count)).fault = none) :
    (m.executions (rounds period noise executed count)).length = count := by
  induction count generalizing m executed with
  | zero => rfl
  | succ k ih =>
    rw [after_rounds_succ] at h
    obtain ⟨x, hx, -⟩ := exists_execution_of_round (fault_of_after_rounds h)
    rw [rounds, Machine.executions_append, hx, List.length_append, ih h, List.length_singleton]
    exact Nat.add_comm 1 k

/-- Over rounds in which nothing loads a timer, it loses as much as the number of whole periods
grows by. -/
theorem toNat_value_rounds {timer : Timer}
    (h : (m.after (rounds period noise executed count)).fault = none)
    (hnone : ∀ x ∈ m.executions (rounds period noise executed count), timer.loaded? x = none) :
    (timer.value (m.after (rounds period noise executed count)).state).toNat =
      (timer.value m.state).toNat - ((executed + count) / period - executed / period) := by
  induction count generalizing m executed with
  | zero =>
    rw [Nat.add_zero, Nat.sub_self]
    rfl
  | succ k ih =>
    rw [after_rounds_succ] at h ⊢
    rw [rounds, Machine.executions_append, List.forall_mem_append] at hnone
    obtain ⟨x, hx, hv⟩ := exists_execution_of_round (fault_of_after_rounds h)
    have hfirst : timer.loaded? x = none := hnone.1 x (by rw [hx]; exact List.mem_cons_self)
    rw [ih h hnone.2, hv timer, hfirst, Option.getD_none, sub_growth]

private theorem exists_round_of_executions_eq_cons {x : Execution} {rest : List Execution}
    (h : (m.after (rounds period noise executed count)).fault = none)
    (hran : m.executions (rounds period noise executed count) = x :: rest) :
    let next := m.after (round period noise executed)
    ∃ k, count = k + 1 ∧ next.executions (rounds period noise (executed + 1) k) = rest ∧
      ∀ timer : Timer, (timer.value next.state).toNat =
        ((timer.loaded? x).getD (timer.value m.state)).toNat -
          ((executed + 1) / period - executed / period) := by
  cases count with
  | zero => cases hran
  | succ k =>
    rw [after_rounds_succ] at h
    obtain ⟨y, hy, hv⟩ := exists_execution_of_round (fault_of_after_rounds h)
    rw [rounds, Machine.executions_append, hy, List.singleton_append, List.cons.injEq] at hran
    obtain ⟨rfl, hrest⟩ := hran
    exact ⟨k, rfl, hrest, hv⟩

/-- Over rounds in which a timer is loaded, it ends at what was loaded last, less as much as the
number of whole periods has grown by since before that round. -/
theorem toNat_value_rounds_of_loaded {timer : Timer} {earlier later : List Execution}
    {x : Execution} {loaded : UInt8}
    (h : (m.after (rounds period noise executed count)).fault = none)
    (hran : m.executions (rounds period noise executed count) = earlier ++ x :: later)
    (hload : timer.loaded? x = some loaded) (hnone : ∀ y ∈ later, timer.loaded? y = none) :
    (timer.value (m.after (rounds period noise executed count)).state).toNat =
      loaded.toNat - ((executed + count) / period - (executed + earlier.length) / period) := by
  induction earlier generalizing m executed count with
  | nil =>
    obtain ⟨k, rfl, hrest, hv⟩ := exists_round_of_executions_eq_cons h hran
    rw [after_rounds_succ] at h ⊢
    subst hrest
    rw [toNat_value_rounds h hnone, hv timer, hload, Option.getD_some, sub_growth]
    rfl
  | cons y rest ih =>
    obtain ⟨k, rfl, hrest, -⟩ := exists_round_of_executions_eq_cons h hran
    rw [after_rounds_succ] at h ⊢
    have hall : executed + 1 + k = executed + (k + 1) := by omega
    have hbefore : executed + 1 + rest.length = executed + (y :: rest).length := by
      rw [List.length_cons]
      omega
    rw [ih h hrest, hall, hbefore]

/-! ### Runs -/

private theorem state_of_ending {remaining : Nat} {r : Report}
    (h : Ending period noise remaining 0 m r) :
    r.machine.state = (m.after (rounds period noise 0 r.executed)).state := by
  rcases performed_cases h with ⟨-, hm⟩ | ⟨fault, -, hs⟩
  · rw [hm]
  · exact Machine.state_of_step_eq_error hs

private theorem executions_performed {remaining : Nat} {r : Report}
    (h : Ending period noise remaining 0 m r) :
    m.executions (performed period noise r) =
      m.executions (rounds period noise 0 r.executed) := by
  rcases performed_cases h with ⟨hp, -⟩ | ⟨fault, hp, hs⟩
  · rw [hp]
  · rw [hp, Machine.executions_append, Machine.executions, Machine.ran?_exchange_step, hs]
    exact List.append_nil _

private theorem timers_zero_of_ofRom {rom : List UInt8} {fresh : Machine}
    (h : Machine.ofRom rom = .ok fresh) (held : List Key) :
    let start := held.foldl Machine.pressKey fresh
    start.fault = none ∧ ∀ timer : Timer, timer.value start.state = 0 := by
  intro start
  obtain ⟨keys, hk⟩ := Machine.foldl_pressKey held fresh
  obtain ⟨memory, rfl⟩ := Machine.eq_powerUp_of_ofRom h
  have hstart : start = { Machine.powerUp with state := { State.initial with memory }, keys } := hk
  rw [hstart]
  exact ⟨rfl, fun timer ↦ timer.value_initial memory⟩

/-- Timers follow the count of instructions. After a run on a freshly loaded machine with some keys
down, a timer holds zero if nothing has loaded it. Otherwise it holds what was loaded last, less the
number of multiples of the period from the number of that instruction on, down to zero. The buzzer
sounds if the value of the sound timer is positive, and only then. All this holds however the run
stopped. -/
theorem timers_follow_count (rom : List UInt8) (held : List Key) (pace : Pace) (limit : Nat)
    (noise : Nat → UInt8) {fresh : Machine} (h : Machine.ofRom rom = .ok fresh) :
    let start := held.foldl Machine.pressKey fresh
    let r := run pace limit noise start
    let operations := performed pace.period noise r
    let ran := start.executions operations
    start.after operations = r.machine ∧ ran.length = r.executed ∧
      (∀ timer : Timer,
        ((∀ x ∈ ran, timer.loaded? x = none) → timer.value r.machine.state = 0) ∧
        ∀ earlier x later loaded, ran = earlier ++ x :: later →
          timer.loaded? x = some loaded → (∀ y ∈ later, timer.loaded? y = none) →
          (timer.value r.machine.state).toNat =
            loaded.toNat - (r.executed / pace.period - earlier.length / pace.period)) ∧
      (r.machine.isBuzzing = true ↔ 0 < (Timer.sound.value r.machine.state).toNat) := by
  intro start r operations ran
  obtain ⟨hf, hzero⟩ := timers_zero_of_ofRom h held
  have he : Ending pace.period noise limit 0 start r := ending_runFrom ..
  obtain ⟨k, hk⟩ := exists_stopsAt pace.period noise limit 0 start
  have hexec : r.executed = k := hk.executed_eq.trans (Nat.zero_add k)
  have hrunning := hk.fault_after_rounds hf
  rw [← hexec] at hrunning
  have hran : ran = start.executions (rounds pace.period noise 0 r.executed) :=
    executions_performed he
  have hstate := state_of_ending he
  refine ⟨after_performed he, ?_, ?_, ?_⟩
  · rw [hran]
    exact length_executions_rounds hrunning
  · intro timer
    constructor
    · intro hnone
      rw [hran] at hnone
      have hv := toNat_value_rounds hrunning hnone
      rw [hzero timer, UInt8.toNat_zero, Nat.zero_sub] at hv
      rw [hstate]
      exact UInt8.toNat_inj.mp hv
    · intro earlier x later loaded hsplit hload hnone
      have hv := toNat_value_rounds_of_loaded hrunning (hran.symm.trans hsplit) hload hnone
      rw [Nat.zero_add, Nat.zero_add] at hv
      rw [hstate]
      exact hv
  · rw [Machine.isBuzzing, bne_iff_ne, ne_eq, ← UInt8.toNat_inj, Nat.pos_iff_ne_zero]
    rfl

/-- A program that loads both timers with five and then returns without a call. The number of its
second instruction is a multiple of the period, so that the timer which it loads loses one at
once. -/
theorem timers_follow_count_of_lone_return :
    let rom := [0x60, 0x05, 0xF0, 0x15, 0xF0, 0x18, 0x00, 0xEE]
    let fresh := Machine.powerUp.after [.load rom]
    let pace : Pace := ⟨120, 60⟩
    let r := run pace 10 (fun _ ↦ 0) fresh
    let ran := fresh.executions (performed pace.period (fun _ ↦ 0) r)
    Machine.ofRom rom = .ok fresh ∧ r.stop = .faulted .stackUnderflow ∧ r.executed = 3 ∧
      ran.map Timer.delay.loaded? = [none, some 5, none] ∧
      ran.map Timer.sound.loaded? = [none, none, some 5] ∧
      (Timer.delay.value r.machine.state).toNat = 4 ∧
      (Timer.sound.value r.machine.state).toNat = 5 ∧ r.machine.isBuzzing = true := by
  intro rom fresh pace r ran
  have h : Machine.ofRom rom = .ok fresh := rfl
  have hat : r.stop = .faulted .stackUnderflow ∧
      r.executed = 3 ∧ ran.map Timer.delay.loaded? = [none, some 5, none] ∧
      ran.map Timer.sound.loaded? = [none, none, some 5] := by
    decide +kernel +zetaReduce
  obtain ⟨hstop, hexec, hdelay, hsound⟩ := hat
  have hperiod : pace.period = 2 := by decide +kernel +zetaReduce
  have hr : run pace 10 (fun _ ↦ 0) ([].foldl Machine.pressKey fresh) = r := rfl
  have hran : ([].foldl Machine.pressKey fresh).executions
      (performed pace.period (fun _ ↦ 0) r) = ran := rfl
  obtain ⟨-, hlength, htimers, hbuzzing⟩ := timers_follow_count rom [] pace 10 (fun _ ↦ 0) h
  -- From here on, what the program leads to is not computed again.
  clear_value r ran
  rw [hr] at hbuzzing
  rw [hr, hran, hexec] at hlength
  rw [hr, hran, hexec, hperiod] at htimers
  obtain ⟨a, b, c, rfl⟩ := List.length_eq_three.mp hlength
  obtain ⟨-, hdelay_last⟩ := htimers .delay
  obtain ⟨-, hsound_last⟩ := htimers .sound
  simp only [List.map_cons, List.map_nil, List.cons.injEq, and_true] at hdelay hsound
  have hd : (Timer.delay.value r.machine.state).toNat = 4 := by
    simpa using hdelay_last [a] b [c] 5 rfl hdelay.2.1 (by simpa using hdelay.2.2)
  have hs : (Timer.sound.value r.machine.state).toNat = 5 := by
    simpa using hsound_last [a, b] c [] 5 rfl hsound.2.2 nofun
  refine ⟨h, hstop, hexec, by simpa using hdelay, by simpa using hsound, hd, hs, ?_⟩
  rw [hbuzzing, hs]
  decide

end Host

end ChipEight
