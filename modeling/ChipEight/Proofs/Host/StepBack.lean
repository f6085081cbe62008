import ChipEight.Proofs.Host.Run
import ChipEight.Proofs.Machine.Undo

/-!
# Stepping back from a run

While no key moves, a stall lasts: of the rounds that a run goes through, first some change the
state and then none does. So the history that a run leaves on a fresh machine is the list of its
states before the first so many rounds, and the run that stops at one of those rounds meets no early
exit. Going back after the longer run leads to where the shorter one ends.
-/

namespace ChipEight.Host

open Machine (changes_step_iff changePoints_append)

/-- The operations that a run with a report has carried out: its rounds and the step that failed, if
one did. -/
def performed (period : Nat) (noise : Nat → UInt8) (r : Report) : List Command :=
  rounds period noise 0 r.executed ++
    match r.stop with
    | .faulted _ => [.step (noise r.executed)]
    | _ => []

/-- The states of a machine before each of the first `count` rounds, the latest first. -/
def statesBefore (period : Nat) (noise : Nat → UInt8) (executed count : Nat) (m : Machine) :
    List State :=
  ((List.range count).map fun k ↦ (m.after (rounds period noise executed k)).state).reverse

/-- Whether each of the first `count` rounds has a step that changes the state. -/
def ChangesThrough (period : Nat) (noise : Nat → UInt8) (executed count : Nat) (m : Machine) :
    Prop :=
  ∀ k, k < count →
    (m.after (rounds period noise executed k)).changes (.step (noise (executed + k))) = true

variable {period : Nat} {noise : Nat → UInt8} {executed count : Nat} {m : Machine}

/-! ### The operations of a run -/

private theorem isForward_rounds {c : Command} (h : c ∈ rounds period noise executed count) :
    c.isForward = true := by
  induction count generalizing executed with
  | zero => cases h
  | succ k ih =>
    rcases List.mem_append.mp h with hr | hr
    · unfold round at hr
      split at hr
      · rcases List.mem_cons.mp hr with rfl | hr
        · rfl
        · cases List.mem_singleton.mp hr
          rfl
      · cases List.mem_singleton.mp hr
        rfl
    · exact ih hr

/-- A run neither loads nor goes back. -/
theorem isForward_performed {r : Report} {c : Command} (h : c ∈ performed period noise r) :
    c.isForward = true := by
  rcases List.mem_append.mp h with hr | hr
  · exact isForward_rounds hr
  · split at hr
    · cases List.mem_singleton.mp hr
      rfl
    · cases hr

/-- A run has carried out its rounds and left the machine after them, or tried one more step, which
failed. -/
theorem performed_cases {remaining : Nat} {r : Report}
    (h : Ending period noise remaining 0 m r) :
    let reached := m.after (rounds period noise 0 r.executed)
    (performed period noise r = rounds period noise 0 r.executed ∧ r.machine = reached) ∨
      ∃ fault,
        performed period noise r =
          rounds period noise 0 r.executed ++ [.step (noise r.executed)] ∧
        reached.step (noise r.executed) = (.error fault, r.machine) := by
  cases h with
  | cycleLimit => exact .inl ⟨List.append_nil _, by rw [Nat.zero_add]⟩
  | awaitingKey k hk hw => exact .inl ⟨List.append_nil _, by rw [Nat.zero_add]⟩
  | spinning k hk address next hpc hs => exact .inl ⟨List.append_nil _, by rw [Nat.zero_add]⟩
  | faulted k hk fault halted hs =>
    rw [Nat.zero_add] at hs ⊢
    exact .inr ⟨fault, rfl, hs⟩

/-- The machine that a run leaves is the one after the operations it has carried out. -/
theorem after_performed {remaining : Nat} {r : Report}
    (h : Ending period noise remaining 0 m r) :
    m.after (performed period noise r) = r.machine := by
  rcases performed_cases h with ⟨hp, hm⟩ | ⟨fault, hp, hs⟩
  · rw [hp, hm]
  · rw [hp, m.after_append, Machine.after_cons, Machine.perform_step, hs, Machine.after_nil]

/-! ### The changes of a run -/

private theorem changePoints_round (period : Nat) (noise : Nat → UInt8) (executed : Nat)
    (m : Machine) :
    m.changePoints (round period noise executed) =
      if m.changes (.step (noise executed)) then [m.state] else [] := by
  unfold round
  split <;> rfl

private theorem changePoints_rounds_of_stalled (h : m.Stalled) :
    m.changePoints (rounds period noise executed count) = [] := by
  induction count generalizing m executed with
  | zero => rfl
  | succ k ih =>
    have hc : m.changes (.step (noise executed)) ≠ true := by
      rw [ne_eq, changes_step_iff, h]
      exact not_not_intro rfl
    rw [rounds, changePoints_append, changePoints_round, if_neg hc, List.append_nil,
      after_round_of_stalled h]
    exact ih (stalled_tickAt h period (executed + 1))

private theorem changesThrough_succ_iff :
    ChangesThrough period noise executed (count + 1) m ↔
      m.changes (.step (noise executed)) = true ∧
        ChangesThrough period noise (executed + 1) count
          (m.after (round period noise executed)) := by
  have hr (k : Nat) := after_rounds_succ period noise executed k m
  have he (k : Nat) : executed + 1 + k = executed + (k + 1) := by omega
  constructor
  · intro h
    refine ⟨h 0 count.succ_pos, ?_⟩
    intro k hk
    rw [he, ← hr]
    exact h (k + 1) (Nat.succ_lt_succ hk)
  · rintro ⟨h, ht⟩ k hk
    cases k with
    | zero => exact h
    | succ k =>
      rw [hr, ← he k]
      exact ht k (Nat.lt_of_succ_lt_succ hk)

private theorem statesBefore_succ (period : Nat) (noise : Nat → UInt8) (executed count : Nat)
    (m : Machine) :
    statesBefore period noise executed (count + 1) m =
      statesBefore period noise (executed + 1) count (m.after (round period noise executed)) ++
        [m.state] := by
  unfold statesBefore
  rw [List.range_succ_eq_map, List.map_cons, List.reverse_cons, List.map_map]
  congr 3
  funext k
  exact congrArg Machine.state (after_rounds_succ period noise executed k m)

/-- Of the rounds in a row, first some change the state and then none does. -/
theorem changePoints_rounds (period : Nat) (noise : Nat → UInt8) (executed count : Nat)
    (m : Machine) :
    ∃ changing ≤ count, ChangesThrough period noise executed changing m ∧
      m.changePoints (rounds period noise executed count) =
        statesBefore period noise executed changing m := by
  induction count generalizing m executed with
  | zero => exact ⟨0, Nat.le_refl 0, nofun, rfl⟩
  | succ k ih =>
    rw [rounds, changePoints_append, changePoints_round]
    by_cases hc : m.changes (.step (noise executed)) = true
    · obtain ⟨changing, hle, ht, hp⟩ := ih (executed + 1) (m.after (round period noise executed))
      refine ⟨changing + 1, Nat.succ_le_succ hle, changesThrough_succ_iff.mpr ⟨hc, ht⟩, ?_⟩
      rw [if_pos hc, hp, statesBefore_succ]
    · have hn : (m.step (noise executed)).2.state = m.state :=
        Decidable.not_not.mp fun h ↦ hc ((m.changes_step_iff _).mpr h)
      have hs := stalled_tickAt (Machine.stalled_step hn) period (executed + 1)
      refine ⟨0, Nat.zero_le _, nofun, ?_⟩
      rw [if_neg hc, after_round, changePoints_rounds_of_stalled hs]
      rfl

private theorem changePoints_performed {remaining : Nat} {r : Report}
    (h : Ending period noise remaining 0 m r) :
    m.changePoints (performed period noise r) =
      m.changePoints (rounds period noise 0 r.executed) := by
  rcases performed_cases h with ⟨hp, -⟩ | ⟨fault, hp, hs⟩
  · rw [hp]
  · rw [hp, changePoints_append, Machine.changePoints, Machine.changes_of_error hs]
    exact List.nil_append _

/-! ### Runs that change the state throughout -/

private theorem step_of_changes {noise : UInt8} (h : m.changes (.step noise) = true) :
    m.fault = none ∧ m.isAwaitingKey ≠ true ∧
      ∃ ins, m.step noise = (.ok ins, (m.step noise).2) ∧ ins ≠ .jump m.state.pc := by
  have hn := (m.changes_step_iff noise).mp h
  have hstall : ¬m.Stalled := fun hs ↦ hn (congrArg Machine.state (hs noise))
  rcases m.step_cases noise with ⟨fault, hf, hs⟩ | ⟨fault, hf, ha, hs⟩ | ⟨ins, next, hf, hc, he, hs⟩
  · exact absurd (Machine.stalled_of_fault hf) hstall
  · rw [hs] at hn
    exact absurd rfl hn
  · refine ⟨hf, fun hw ↦ hstall (Machine.stalled_of_isAwaitingKey hw), ins, by rw [hs], ?_⟩
    intro hj
    rw [hj] at hs
    exact hstall (Machine.stalled_of_jump hs)

private theorem runFrom_of_changesThrough (h : ChangesThrough period noise executed count m) :
    runFrom period noise count executed m =
      ⟨.cycleLimit, executed + count, m.after (rounds period noise executed count)⟩ := by
  induction count generalizing m executed with
  | zero => rfl
  | succ k ih =>
    obtain ⟨hc, ht⟩ := changesThrough_succ_iff.mp h
    obtain ⟨-, hw, ins, hs, hj⟩ := step_of_changes hc
    have hround := after_round period noise executed m
    rw [runFrom, if_neg hw, hs]
    simp only [if_neg hj, ← hround]
    rw [ih ht, after_rounds_succ, Nat.add_right_comm, Nat.add_assoc]

private theorem run_of_changesThrough {pace : Pace}
    (h : ChangesThrough pace.period noise 0 count m) :
    run pace count noise m =
      ⟨.cycleLimit, count, m.after (rounds pace.period noise 0 count)⟩ := by
  rw [run, runFrom_of_changesThrough h, Nat.zero_add]

/-! ### Going back after a run -/

private theorem length_statesBefore :
    (statesBefore period noise executed count m).length = count := by
  rw [statesBefore, List.length_reverse, List.length_map, List.length_range]

private theorem getElem_statesBefore {k : Nat}
    (h : k < (statesBefore period noise executed count m).length) :
    (statesBefore period noise executed count m)[k] =
      (m.after (rounds period noise executed (count - 1 - k))).state := by
  simp only [statesBefore, List.getElem_reverse, List.getElem_map, List.getElem_range,
    List.length_map, List.length_range]

/-- A run on a machine without a history leaves the states before the rounds that changed the state,
as many of them as the history holds. -/
theorem history_run {remaining : Nat} {r : Report} (hm : m.history = [])
    (h : Ending period noise remaining 0 m r) :
    r.machine.history =
      (m.changePoints (performed period noise r)).take Machine.historyLimit := by
  have hl : m.history.length ≤ Machine.historyLimit := by
    rw [hm]
    exact Nat.zero_le _
  rw [← after_performed h, Machine.history_after (fun _ ↦ isForward_performed) hl, hm,
    List.append_nil]

/-- Going back from the end of a run on a machine without a history leads to the states before the
rounds that changed the state, the latest of them first. -/
theorem after_rewind_run {remaining changed j : Nat} {r : Report} (hm : m.history = [])
    (h : Ending period noise remaining 0 m r)
    (hp : m.changePoints (performed period noise r) = statesBefore period noise 0 changed m)
    (hj : j < min changed 600) :
    let earlier := r.machine.after (.replicate (j + 1) .rewind)
    earlier.state =
        { (m.after (rounds period noise 0 (changed - (j + 1)))).state with drawn := true } ∧
      earlier.fault = none := by
  have hhist := history_run hm h
  rw [hp] at hhist
  have hlt : j < r.machine.history.length := by
    rw [hhist, List.length_take, length_statesBefore, Nat.min_comm]
    exact hj
  have hstate : r.machine.history[j] =
      (m.after (rounds period noise 0 (changed - (j + 1)))).state := by
    simp only [hhist, List.getElem_take, getElem_statesBefore]
    rw [Nat.sub_sub, Nat.add_comm 1 j]
  rw [r.machine.after_rewind hlt, hstate]
  exact ⟨rfl, rfl⟩

/-- Going back after a run leads to where a shorter run ends. If a run on a freshly loaded machine
with some keys down has changed the state a number of times, then going back from its end, no more
than that often and no more than 600 times, restores the state at the end of the run that is
limited to as many cycles as changes are left. That run reaches its limit. -/
theorem rewind_run (rom : List UInt8) (held : List Key) (pace : Pace) (limit : Nat)
    (noise : Nat → UInt8) {fresh : Machine} (h : Machine.ofRom rom = .ok fresh) :
    let start := held.foldl Machine.pressKey fresh
    let long := run pace limit noise start
    let operations := performed pace.period noise long
    let changed := (start.changePoints operations).length
    start.after operations = long.machine ∧
      ∀ back, 1 ≤ back → back ≤ min changed 600 →
        let short := run pace (changed - back) noise start
        let earlier := long.machine.after (.replicate back .rewind)
        short.stop = .cycleLimit ∧
          earlier.state = { short.machine.state with drawn := true } ∧
          earlier.fault = none ∧ short.machine.fault = none := by
  intro start long operations changed
  have hstart : start.history = [] :=
    (Machine.history_foldl_pressKey held fresh).trans (Machine.history_ofRom h)
  have he : Ending pace.period noise limit 0 start long := ending_runFrom ..
  obtain ⟨s, -, ht, hp⟩ := changePoints_rounds pace.period noise 0 long.executed start
  have hs : start.changePoints operations = statesBefore pace.period noise 0 s start :=
    (changePoints_performed he).trans hp
  have hchanged : changed = s := (congrArg List.length hs).trans length_statesBefore
  refine ⟨after_performed he, ?_⟩
  intro back hone hle short earlier
  rw [hchanged] at hle
  obtain ⟨j, rfl⟩ : ∃ j, back = j + 1 := ⟨back - 1, by omega⟩
  have hshort : short = ⟨.cycleLimit, s - (j + 1),
      start.after (rounds pace.period noise 0 (s - (j + 1)))⟩ := by
    change run pace (changed - (j + 1)) noise start = _
    rw [hchanged]
    exact run_of_changesThrough fun k hk ↦ ht k (by omega)
  obtain ⟨hfault, -⟩ := step_of_changes (ht (s - (j + 1)) (by omega))
  obtain ⟨hstate, hnone⟩ := after_rewind_run hstart he hs (show j < min s 600 from hle)
  rw [hshort]
  exact ⟨rfl, hstate, hnone, hfault⟩

/-- A program that sets a register and then adds to it is taken back from the end of its second
instruction to the end of its first. -/
theorem rewind_run_of_two_changes :
    let rom := [0x60, 0x2A, 0x70, 0x01]
    ∃ fresh, Machine.ofRom rom = .ok fresh ∧
      let start := [5].foldl Machine.pressKey fresh
      let long := run {} 2 (fun _ ↦ 0) start
      let changed := (start.changePoints (performed (Pace.period {}) (fun _ ↦ 0) long)).length
      let short := run {} (changed - 1) (fun _ ↦ 0) start
      let earlier := long.machine.after (.replicate 1 .rewind)
      1 ≤ min changed 600 ∧
        short.stop = .cycleLimit ∧
        earlier.state = { short.machine.state with drawn := true } ∧
        earlier.fault = none ∧ short.machine.fault = none := by
  have h : Machine.ofRom [0x60, 0x2A, 0x70, 0x01] = .ok _ := rfl
  refine ⟨_, h, ?_⟩
  intro start long changed short earlier
  have hle : 1 ≤ min changed 600 := by decide +kernel +zetaReduce
  have hr := (rewind_run [0x60, 0x2A, 0x70, 0x01] [5] {} 2 (fun _ ↦ 0) h).2 1 (Nat.le_refl 1) hle
  -- Unfolding more than the abbreviations would run the program.
  with_reducible exact ⟨hle, hr⟩

end ChipEight.Host
