import ChipEight.Proofs.Machine.Bounds

/-!
# Going back

Which states a history holds, and what going back does with them. Only a step that succeeds and
changes the state adds to the history, and it adds the state before it. So after operations that
neither load nor go back, the history lists those states, the latest first, before the entries that
were there, all cut at the greatest length. Going back takes its entries off one by one; with none
left it does nothing.
-/

namespace ChipEight

namespace Machine

/-- Whether an operation is a step that succeeds and changes the state. -/
def changes (m : Machine) : Command → Bool
  | .step noise => (m.step noise).1.isOk && (m.step noise).2.state != m.state
  | _ => false

/-- The states just before those of some operations that are steps that succeed and change the
state, the latest first. -/
def changePoints (m : Machine) : List Command → List State
  | [] => []
  | c :: rest => (m.perform c).2.changePoints rest ++ if m.changes c then [m.state] else []

/-- Going back as often as there are states succeeds every time and leads through them one after
the other, to a machine with the same keys and no fault. -/
structure Restores (m : Machine) (states : List State) : Prop where
  answers : (m.performAll (.replicate states.length .rewind)).1 =
    .replicate states.length (.rewound true)
  machine : ∀ j (h : j < states.length),
    let back := m.after (.replicate (j + 1) .rewind)
    back.state = { states[j] with drawn := true } ∧ back.keys = m.keys ∧ back.fault = none

/-! ### What the history records -/

/-- A step that fails changes nothing. -/
theorem changes_of_error {m halted : Machine} {noise : UInt8} {fault : Fault}
    (h : m.step noise = (.error fault, halted)) : m.changes (.step noise) = false := by
  rw [changes, h]
  rfl

private theorem changes_of_advance {m : Machine} {noise : UInt8} {ins : Instruction} {next : State}
    (h : m.step noise = (.ok ins, m.advanceTo next)) :
    m.changes (.step noise) = (next != m.state) := by
  rw [changes, h, state_advanceTo]
  rfl

/-- A step changes the state only if it succeeds. -/
theorem changes_step_iff (m : Machine) (noise : UInt8) :
    m.changes (.step noise) = true ↔ (m.step noise).2.state ≠ m.state := by
  rcases m.step_cases noise with ⟨fault, hf, hs⟩ | ⟨fault, hf, ha, hs⟩ | ⟨ins, next, hf, hc, he, hs⟩
  · rw [changes_of_error hs, hs]
    exact ⟨nofun, fun h ↦ absurd rfl h⟩
  · rw [changes_of_error hs, hs]
    exact ⟨nofun, fun h ↦ absurd rfl h⟩
  · rw [changes_of_advance hs, hs, state_advanceTo]
    exact bne_iff_ne

private theorem history_step (m : Machine) (noise : UInt8) (hl : m.history.length ≤ historyLimit) :
    (m.step noise).2.history =
      ((if m.changes (.step noise) then [m.state] else []) ++ m.history).take historyLimit := by
  have hkeep : m.history = m.history.take historyLimit := (List.take_of_length_le hl).symm
  rcases m.step_cases noise with ⟨fault, hf, hs⟩ | ⟨fault, hf, ha, hs⟩ | ⟨ins, next, hf, hc, he, hs⟩
  · rw [changes_of_error hs, hs]
    exact hkeep
  · rw [changes_of_error hs, hs]
    exact hkeep
  · rw [changes_of_advance hs, hs, advanceTo]
    split
    · next hn =>
      rw [hn, bne_self_eq_false]
      exact hkeep
    · next hn =>
      rw [bne_iff_ne.mpr hn]
      rfl

/-- An operation that neither loads nor goes back keeps the history, apart from what a step adds. -/
theorem history_perform (m : Machine) {c : Command} (hc : c.isForward = true)
    (hl : m.history.length ≤ historyLimit) :
    (m.perform c).2.history =
      ((if m.changes c then [m.state] else []) ++ m.history).take historyLimit := by
  have hkeep : m.history =
      ((if false = true then [m.state] else []) ++ m.history).take historyLimit :=
    (List.take_of_length_le hl).symm
  cases c with
  | powerUp => cases hc
  | load rom => cases hc
  | rewind => cases hc
  | step noise =>
    rw [perform_step]
    exact m.history_step noise hl
  | tick =>
    refine Eq.trans ?_ hkeep
    simp only [perform, tick]
    split <;> rfl
  | press code =>
    obtain ⟨keys, hk⟩ := m.perform_press code
    rw [hk]
    exact hkeep
  | release code =>
    obtain ⟨keys, hk⟩ := m.perform_release code
    rw [hk]
    exact hkeep
  | takeFrame =>
    rw [perform_takeFrame]
    exact hkeep

/-- After operations that neither load nor go back, the history lists the states before the changes,
the latest first, and then its former entries, cut at the greatest length. -/
theorem history_after {m : Machine} {commands : List Command}
    (hc : ∀ c ∈ commands, c.isForward = true) (hl : m.history.length ≤ historyLimit) :
    (m.after commands).history = (m.changePoints commands ++ m.history).take historyLimit := by
  induction commands generalizing m with
  | nil => exact (List.take_of_length_le hl).symm
  | cons c rest ih =>
    have hp := m.history_perform (hc c (by simp)) hl
    have hr : (m.perform c).2.history.length ≤ historyLimit := by
      rw [hp]
      exact List.length_take_le ..
    have hf : ∀ d ∈ rest, d.isForward = true := fun d hd ↦ hc d (by simp [hd])
    rw [after_cons, ih hf hr, hp, changePoints, List.append_assoc]
    rw [List.take_append, List.take_take, Nat.min_eq_left (Nat.sub_le ..), ← List.take_append]

/-- The changes made by operations carried out in two parts. -/
theorem changePoints_append (m : Machine) (a b : List Command) :
    m.changePoints (a ++ b) = (m.after a).changePoints b ++ m.changePoints a := by
  induction a generalizing m with
  | nil => exact (List.append_nil _).symm
  | cons c rest ih =>
    rw [List.cons_append, changePoints, ih, changePoints, List.append_assoc]
    rfl

/-! ### Going back -/

/-- Going back succeeds as often as the history has entries. -/
theorem answers_rewind (m : Machine) {count : Nat} (h : count ≤ m.history.length) :
    (m.performAll (.replicate count .rewind)).1 = .replicate count (.rewound true) := by
  induction count generalizing m with
  | zero => rfl
  | succ k ih =>
    obtain ⟨s, older, hs⟩ := List.exists_cons_of_length_pos (Nat.lt_of_lt_of_le k.succ_pos h)
    rw [hs, List.length_cons] at h
    simp only [List.replicate_succ, performAll, perform_rewind_cons hs]
    rw [ih _ (Nat.le_of_succ_le_succ h)]

/-- Going back takes entries off the history one by one and keeps the keys. -/
theorem after_rewind (m : Machine) {count : Nat} (h : count < m.history.length) :
    m.after (.replicate (count + 1) .rewind) =
      ⟨{ m.history[count] with drawn := true }, m.history.drop (count + 1), m.keys, none⟩ := by
  induction count generalizing m with
  | zero =>
    obtain ⟨s, older, hs⟩ := List.exists_cons_of_length_pos h
    rw [List.replicate_succ, after_cons, perform_rewind_cons hs]
    simp [hs, after_nil]
  | succ k ih =>
    obtain ⟨s, older, hs⟩ := List.exists_cons_of_length_pos (Nat.lt_of_le_of_lt k.succ.zero_le h)
    have hk : k < older.length := by
      rw [hs, List.length_cons] at h
      omega
    rw [List.replicate_succ, after_cons, perform_rewind_cons hs, ih _ hk]
    simp [hs]

/-- What going back leaves of the history. -/
theorem history_after_rewind (m : Machine) {count : Nat} (h : count ≤ m.history.length) :
    (m.after (.replicate count .rewind)).history = m.history.drop count := by
  cases count with
  | zero => rfl
  | succ k => rw [m.after_rewind h]

private theorem after_rewind_add (m : Machine) (k : Nat) :
    m.after (.replicate (m.history.length + k) .rewind) =
      m.after (.replicate m.history.length .rewind) := by
  rw [← List.replicate_append_replicate, after_append]
  generalize hm : m.after (.replicate m.history.length .rewind) = back
  have hnil : back.history = [] := by
    rw [← hm, m.history_after_rewind (Nat.le_refl _), List.drop_length]
  clear hm
  induction k with
  | zero => rfl
  | succ k ih => rw [List.replicate_succ, after_cons, perform_rewind_nil hnil, ih]

private theorem restores_take (m : Machine) (count : Nat) : m.Restores (m.history.take count) where
  answers := by
    apply m.answers_rewind
    rw [List.length_take]
    exact Nat.min_le_right ..
  machine := by
    intro j h
    have hj : j < m.history.length := by
      rw [List.length_take] at h
      omega
    rw [m.after_rewind hj, List.getElem_take]
    exact ⟨rfl, rfl, rfl⟩

/-- Going back undoes the changes that steps made since any point of a run, the last one first and
up to 600 of them, and ends with what was in the history before. When it has undone 600, nothing is
left to go back to. -/
theorem rewind_undoes_changes (before commands : List Command)
    (h : ∀ c ∈ commands, c.isForward = true) :
    let start := powerUp.after before
    let points := start.changePoints commands
    let finish := start.after commands
    finish.Restores (points.take 600) ∧
      (points.length ≤ 600 →
        (finish.after (.replicate points.length .rewind)).history =
          start.history.take (min start.history.length (600 - points.length))) ∧
      (600 < points.length → ∀ k,
        let spent := finish.after (.replicate (600 + k) .rewind)
        spent.perform .rewind = (.rewound false, spent)) := by
  intro start points finish
  have hl : start.history.length ≤ 600 := (bounded_powerUp.after before).length_le
  have hh : finish.history = (points ++ start.history).take 600 := history_after h hl
  refine ⟨?_, ?_, ?_⟩
  · have ht : points.take 600 = finish.history.take (min 600 points.length) := by
      rw [hh, List.take_take, Nat.min_right_comm, Nat.min_self,
        List.take_append_of_le_length (Nat.min_le_right ..), ← List.take_eq_take_min]
    rw [ht]
    exact finish.restores_take (min 600 points.length)
  · intro hn
    have hc : points.length ≤ finish.history.length := by
      rw [hh, List.length_take, List.length_append]
      omega
    rw [finish.history_after_rewind hc, hh, List.drop_take, List.drop_left, Nat.min_comm,
      ← List.take_eq_take_min]
  · intro hn k spent
    have hf : finish.history.length = 600 := by
      rw [hh, List.length_take, List.length_append]
      omega
    have hs : spent = finish.after (.replicate finish.history.length .rewind) := by
      rw [← finish.after_rewind_add k, hf]
    apply perform_rewind_nil
    rw [hs, finish.history_after_rewind (Nat.le_refl _), List.drop_length]

/-- A program that loads a register and then jumps to itself is taken back through a key press, a
tick, a stalled step and the taking of a frame. -/
theorem rewind_undoes_changes_of_stall :
    let rom := [0x60, 0x2A, 0x12, 0x02]
    let commands := [.press 5, .step 0, .tick, .step 0, .takeFrame]
    let start := powerUp.after [.load rom]
    (∀ c ∈ commands, c.isForward = true) ∧
      (start.after commands).Restores ((start.changePoints commands).take 600) :=
  ⟨by decide, (rewind_undoes_changes _ _ (by decide)).1⟩

end Machine

end ChipEight
