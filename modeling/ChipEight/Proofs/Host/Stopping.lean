import ChipEight.Proofs.Host.Run

/-!
# Where a run stops

After any number of rounds there may be a reason for a run to be over, and where several apply the
first of a fixed order counts: the last round ran a jump to itself, the limit is reached, the
machine waits for a key, or the next step would fail. A run stops at the least number of rounds for
which there is a reason.
-/

namespace ChipEight.Host

/-- The address of a jump to itself that the last of `k` rounds after the first `executed` ran. -/
def spun? (period : Nat) (noise : Nat → UInt8) (executed : Nat) (m : Machine) :
    (k : Nat) → Option UInt16
  | 0 => none
  | k + 1 =>
    let before := m.after (rounds period noise executed k)
    match (before.step (noise (executed + k))).1 with
    | .ok ins => if ins = .jump before.state.pc then some before.state.pc else none
    | .error _ => none

/-- Why a run of at most `limit` rounds after the first `executed` is over after `k` of them, if it
is: the first reason that applies. -/
def stop? (period : Nat) (noise : Nat → UInt8) (limit executed : Nat) (m : Machine) (k : Nat) :
    Option Stop :=
  let reached := m.after (rounds period noise executed k)
  match spun? period noise executed m k with
  | some address => some (.spinning address)
  | none =>
    if k = limit then some .cycleLimit
    else if reached.isAwaitingKey then some .awaitingKey
    else
      match (reached.step (noise (executed + k))).1 with
      | .error fault => some (.faulted fault)
      | .ok _ => none

/-- The machine that a run leaves after `k` rounds: where it stopped for a fault, the step that
raised it has been tried. -/
def left (period : Nat) (noise : Nat → UInt8) (executed : Nat) (m : Machine) (k : Nat) :
    Stop → Machine
  | .faulted _ => ((m.after (rounds period noise executed k)).step (noise (executed + k))).2
  | _ => m.after (rounds period noise executed k)

/-- A report of a run that stopped after `k` rounds, for the first reason and at the first round for
which there is one. -/
structure StopsAt (period : Nat) (noise : Nat → UInt8) (limit executed : Nat) (m : Machine)
    (k : Nat) (r : Report) : Prop where
  le : k ≤ limit
  executed_eq : r.executed = executed + k
  goes_on : ∀ j < k, stop? period noise limit executed m j = none
  reason : stop? period noise limit executed m k = some r.stop
  machine_eq : r.machine = left period noise executed m k r.stop

variable {period : Nat} {noise : Nat → UInt8} {limit executed : Nat} {m : Machine} {r : Report}

/-! ### From one round to the next -/

private theorem spun?_succ (h : spun? period noise executed m 1 = none) (k : Nat) :
    spun? period noise executed m (k + 1) =
      spun? period noise (executed + 1) (m.after (round period noise executed)) k := by
  cases k with
  | zero => exact h
  | succ k =>
    have he : executed + (k + 1) = executed + 1 + k := by omega
    rw [spun?, spun?, after_rounds_succ, he]

private theorem stop?_succ (h : spun? period noise executed m 1 = none) (limit k : Nat) :
    stop? period noise (limit + 1) executed m (k + 1) =
      stop? period noise limit (executed + 1) (m.after (round period noise executed)) k := by
  have he : executed + (k + 1) = executed + 1 + k := by omega
  simp only [stop?, spun?_succ h, after_rounds_succ, he, Nat.add_right_cancel_iff]

private theorem left_succ (k : Nat) (stop : Stop) :
    left period noise executed m (k + 1) stop =
      left period noise (executed + 1) (m.after (round period noise executed)) k stop := by
  have he : executed + (k + 1) = executed + 1 + k := by omega
  cases stop <;> simp only [left, after_rounds_succ, he]

/-- A run that goes on after its first round stops where the run after that round does. -/
theorem StopsAt.afterRound {k : Nat} (h0 : stop? period noise (limit + 1) executed m 0 = none)
    (h1 : spun? period noise executed m 1 = none)
    (h : StopsAt period noise limit (executed + 1) (m.after (round period noise executed)) k r) :
    StopsAt period noise (limit + 1) executed m (k + 1) r where
  le := Nat.succ_le_succ h.le
  executed_eq := by
    rw [h.executed_eq]
    omega
  goes_on := by
    intro j hj
    cases j with
    | zero => exact h0
    | succ j =>
      rw [stop?_succ h1]
      exact h.goes_on j (Nat.lt_of_succ_lt_succ hj)
  reason := (stop?_succ h1 limit k).trans h.reason
  machine_eq := h.machine_eq.trans (left_succ k r.stop).symm

/-! ### Runs -/

private theorem stop?_zero (limit : Nat) :
    stop? period noise (limit + 1) executed m 0 =
      if m.isAwaitingKey then some .awaitingKey
      else
        match (m.step (noise executed)).1 with
        | .error fault => some (.faulted fault)
        | .ok _ => none := rfl

private theorem spun?_one :
    spun? period noise executed m 1 =
      match (m.step (noise executed)).1 with
      | .ok ins => if ins = .jump m.state.pc then some m.state.pc else none
      | .error _ => none := rfl

/-- Every run stops at the first round for which there is a reason. -/
theorem exists_stopsAt (period : Nat) (noise : Nat → UInt8) (limit executed : Nat) (m : Machine) :
    ∃ k, StopsAt period noise limit executed m k (runFrom period noise limit executed m) := by
  induction limit generalizing executed m with
  | zero => exact ⟨0, Nat.le_refl 0, rfl, nofun, rfl, rfl⟩
  | succ limit ih =>
    -- The branches of the loop body are the reasons, in their order, but for a jump to itself: that
    -- one is found in the round before, which is why it comes first.
    have ha := after_round period noise executed m
    rw [runFrom]
    split
    · next hw => exact ⟨0, Nat.zero_le _, rfl, nofun, by rw [stop?_zero, if_pos hw], rfl⟩
    · next hw =>
      split
      · next fault halted hs =>
        refine ⟨0, Nat.zero_le _, rfl, nofun, by rw [stop?_zero, if_neg hw, hs], ?_⟩
        change halted = (m.step (noise executed)).2
        rw [hs]
      · next ins next hs =>
        have h0 : stop? period noise (limit + 1) executed m 0 = none := by
          rw [stop?_zero, if_neg hw, hs]
        rw [hs] at ha
        change m.after (round period noise executed) = tickAt period (executed + 1) next at ha
        rw [← ha]
        -- A jump to itself ends the run after its round, so the tick of that round is still made.
        split
        · next hi =>
          have h1 : spun? period noise executed m 1 = some m.state.pc := by
            rw [spun?_one, hs]
            exact if_pos hi
          refine ⟨1, Nat.succ_le_succ limit.zero_le, rfl, ?_, by rw [stop?, h1], ?_⟩
          · intro j hj
            rw [Nat.lt_one_iff.mp hj]
            exact h0
          · exact (after_rounds_succ period noise executed 0 m).symm
        · next hi =>
          have h1 : spun? period noise executed m 1 = none := by
            rw [spun?_one, hs]
            exact if_neg hi
          obtain ⟨k, hk⟩ := ih (executed + 1) (m.after (round period noise executed))
          exact ⟨k + 1, hk.afterRound h0 h1⟩

private theorem step_of_stop?_eq_none {k : Nat} (h : stop? period noise limit executed m k = none) :
    ∃ ins next,
      (m.after (rounds period noise executed k)).step (noise (executed + k)) = (.ok ins, next) := by
  simp only [stop?] at h
  cases hs : (m.after (rounds period noise executed k)).step (noise (executed + k)) with
  | mk answer next =>
    cases answer with
    | ok ins => exact ⟨ins, next, rfl⟩
    | error fault =>
      rw [hs] at h
      grind

/-- The rounds that a run goes through leave a machine running if it was. -/
theorem StopsAt.fault_after_rounds {k : Nat} (h : StopsAt period noise limit executed m k r)
    (hm : m.fault = none) : (m.after (rounds period noise executed k)).fault = none := by
  suffices hall : ∀ j ≤ k, (m.after (rounds period noise executed j)).fault = none from
    hall k (Nat.le_refl k)
  intro j hj
  induction j with
  | zero => exact hm
  | succ j ih =>
    obtain ⟨ins, next, hs⟩ := step_of_stop?_eq_none (h.goes_on j hj)
    obtain ⟨hf, -, reached, -, hstep⟩ := Machine.exists_execute_of_step (congrArg Prod.fst hs)
    rw [after_rounds_succ_last, after_round, fault_tickAt, hstep, Machine.fault_advanceTo]
    exact hf

/-- A run stops at the first round at which there is a reason to, for the first of the reasons that
apply there: the last round ran a jump to itself, the limit is reached, the machine waits for a key,
or its step fails. It has then gone through no more rounds than its limit, and leaves the machine
that the rounds lead to, after a fault with the failing step tried. Ticks are counted with a period
that is not zero. -/
theorem run_stops_at_first_reason (pace : Pace) (cycles : Nat) (noise : Nat → UInt8)
    (m : Machine) :
    let r := run pace cycles noise m
    0 < pace.period ∧ r.executed ≤ cycles ∧
      (∀ k < r.executed, stop? pace.period noise cycles 0 m k = none) ∧
      stop? pace.period noise cycles 0 m r.executed = some r.stop ∧
      r.machine = left pace.period noise 0 m r.executed r.stop := by
  intro r
  obtain ⟨k, hk⟩ := exists_stopsAt pace.period noise cycles 0 m
  have he : r.executed = k := hk.executed_eq.trans (Nat.zero_add k)
  rw [he]
  exact ⟨pace.period_pos, hk.le, hk.goes_on, hk.reason, hk.machine_eq⟩

end ChipEight.Host
