import ChipEight.Machine.Transcript

/-!
# Transitions

What one operation can do to a machine and what the host hears of it, one rule for each thing that
can happen. An invariant of machines is proved by cases on these rules.
-/

namespace ChipEight.Machine

/-- The ways in which an exchange can lead from a machine to the next. -/
inductive Transition (m : Machine) : Exchange → Machine → Prop where
  /-- The machine begins anew, with some memory. -/
  | restart {e : Exchange} (memory : Memory) (hr : e.restarts = true) :
      Transition m e { powerUp with state := { State.initial with memory } }
  /-- The instruction at the program counter runs. -/
  | run {noise : UInt8} {ins : Instruction} {next : State} (hf : m.fault = none)
      (hc : m.currentInstruction = .ok ins) (he : ins.execute m.state m.keys noise = .ok next) :
      Transition m ⟨.step noise, .ran ins⟩ (m.advanceTo next)
  /-- The instruction at the program counter fails and halts the machine. -/
  | raise {noise : UInt8} {fault : Fault} (hf : m.fault = none)
      (ha : m.attempt noise = .error fault) :
      Transition m ⟨.step noise, .failed fault⟩ { m with fault := some fault }
  /-- The timers count down. -/
  | tick (hf : m.fault = none) : Transition m ⟨.tick, .done⟩ { m with state := m.state.tick }
  /-- The timers of a halted machine stand still. -/
  | rest {fault : Fault} (hf : m.fault = some fault) : Transition m ⟨.tick, .done⟩ m
  /-- A key goes down. -/
  | press {code : UInt8} (keys : Keypad) : Transition m ⟨.press code, .done⟩ { m with keys }
  /-- A key goes up. -/
  | release {code : UInt8} (keys : Keypad) : Transition m ⟨.release code, .done⟩ { m with keys }
  /-- The picture is taken. -/
  | take (hd : m.state.drawn = true) :
      Transition m ⟨.takeFrame, .frame (some m.state.frame)⟩
        { m with state := { m.state with drawn := false } }
  /-- The latest state of the history comes back. -/
  | restore {s : State} {older : List State} (hh : m.history = s :: older) :
      Transition m ⟨.rewind, .rewound true⟩ ⟨{ s with drawn := true }, older, m.keys, none⟩
  /-- The operation is refused: the machine is halted, the program is too long, there is no such
  key, no new picture or no earlier state. -/
  | refuse {e : Exchange} (hn : e.restarts = false) (hr : e.answer.refuses = true) :
      Transition m e m

/-- Every operation is one of the transitions. -/
theorem transition_perform (m : Machine) (c : Command) :
    m.Transition (m.exchange c) (m.perform c).2 := by
  unfold exchange
  cases c with
  | powerUp => exact .restart .initial rfl
  | load rom =>
    simp only [perform]
    cases hl : ofRom rom with
    | error fault => exact .refuse rfl rfl
    | ok fresh =>
      obtain ⟨memory, rfl⟩ := eq_powerUp_of_ofRom hl
      exact .restart memory rfl
  | step noise =>
    simp only [perform]
    rcases m.step_cases noise with
      ⟨fault, hf, hs⟩ | ⟨fault, hf, ha, hs⟩ | ⟨ins, next, hf, hc, he, hs⟩
    · rw [hs]
      exact .refuse rfl rfl
    · rw [hs]
      exact .raise hf ha
    · rw [hs]
      exact .run hf hc he
  | tick =>
    change m.Transition ⟨.tick, .done⟩ m.tick
    cases hf : m.fault with
    | some fault =>
      rw [tick_of_fault hf]
      exact .rest hf
    | none =>
      rw [tick_of_fault_eq_none hf]
      exact .tick hf
  | press code =>
    simp only [perform, Machine.press]
    cases Key.ofCode code with
    | error fault => exact .refuse rfl rfl
    | ok key => exact .press (m.keys.press key)
  | release code =>
    simp only [perform, Machine.release]
    cases Key.ofCode code with
    | error fault => exact .refuse rfl rfl
    | ok key => exact .release (m.keys.release key)
  | takeFrame =>
    simp only [perform, takeFrame]
    split
    · next hd => exact .take hd
    · exact .refuse rfl rfl
  | rewind =>
    cases hh : m.history with
    | nil =>
      rw [perform_rewind_nil hh]
      exact .refuse rfl rfl
    | cons s older =>
      rw [perform_rewind_cons hh]
      exact .restore hh

end ChipEight.Machine
