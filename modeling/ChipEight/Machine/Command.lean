import ChipEight.Machine

/-!
# Commands

The operations of a machine as data, so that what a host does with one is a list. A command carries
all that its effect depends on, including the byte that a step may draw; its answer is what the host
sees.
-/

namespace ChipEight

/-- One operation on a machine. -/
inductive Command where
  | powerUp
  | load (rom : List UInt8)
  | step (noise : UInt8)
  | tick
  | press (code : UInt8)
  | release (code : UInt8)
  | takeFrame
  | rewind
  deriving DecidableEq

/-- Whether an operation neither replaces the machine nor goes back. -/
def Command.isForward : Command → Bool
  | .powerUp => false
  | .load _ => false
  | .rewind => false
  | _ => true

/-- Whether an operation neither replaces the machine nor moves its keys. -/
def Command.keepsKeys : Command → Bool
  | .step _ => true
  | .tick => true
  | .takeFrame => true
  | .rewind => true
  | _ => false

/-- The operations that press keys one after the other. -/
def Command.presses (keys : List Key) : List Command := keys.map fun key ↦ .press key.code

/-- What a host learns from one operation. -/
inductive Answer where
  /-- The operation was carried out. -/
  | done
  /-- The operation failed. -/
  | failed (fault : Fault)
  /-- A step ran this instruction. -/
  | ran (ins : Instruction)
  /-- The picture, if it had been drawn on. -/
  | frame (taken : Option Frame)
  /-- Whether there was a state to go back to. -/
  | rewound (restored : Bool)
  deriving DecidableEq

namespace Machine

/-- Keep the machine if an operation on it failed. -/
def settle (m : Machine) : Except Fault Machine → Answer × Machine
  | .ok next => (.done, next)
  | .error fault => (.failed fault, m)

/-- Carry out one operation. -/
def perform (m : Machine) : Command → Answer × Machine
  | .powerUp => (.done, .powerUp)
  | .load rom => m.settle (Machine.ofRom rom)
  | .step noise =>
    match m.step noise with
    | (.ok ins, next) => (.ran ins, next)
    | (.error fault, next) => (.failed fault, next)
  | .tick => (.done, m.tick)
  | .press code => m.settle (m.press code)
  | .release code => m.settle (m.release code)
  | .takeFrame => (.frame m.takeFrame.1, m.takeFrame.2)
  | .rewind =>
    match m.rewind? with
    | some earlier => (.rewound true, earlier)
    | none => (.rewound false, m)

/-- Carry out operations one after the other. -/
def performAll (m : Machine) : List Command → List Answer × Machine
  | [] => ([], m)
  | c :: rest =>
    let first := m.perform c
    let others := first.2.performAll rest
    (first.1 :: others.1, others.2)

/-- The machine after operations, without their answers. -/
def after (m : Machine) (commands : List Command) : Machine := (m.performAll commands).2

/-- No operations leave the machine as it is. -/
theorem after_nil (m : Machine) : m.after [] = m := rfl

/-- Operations act one after the other. -/
theorem after_cons (m : Machine) (c : Command) (rest : List Command) :
    m.after (c :: rest) = (m.perform c).2.after rest := rfl

/-- The machine after a step, whatever the step answered. -/
theorem perform_step (m : Machine) (noise : UInt8) :
    (m.perform (.step noise)).2 = (m.step noise).2 := by
  simp only [perform]
  split <;> next h => rw [h]

/-- What the host learns from a step. -/
theorem answer_step (m : Machine) (noise : UInt8) :
    (m.perform (.step noise)).1 = match (m.step noise).1 with
      | .ok ins => .ran ins
      | .error fault => .failed fault := by
  simp only [perform]
  split <;> next h => rw [h]

/-- Pressing a key changes nothing but the keys. -/
theorem perform_press (m : Machine) (code : UInt8) :
    ∃ keys, (m.perform (.press code)).2 = { m with keys } := by
  simp only [perform, press]
  cases Key.ofCode code with
  | error fault => exact ⟨m.keys, rfl⟩
  | ok key => exact ⟨m.keys.press key, rfl⟩

/-- Pressing keys by their codes is carried out each time. -/
theorem performAll_presses (m : Machine) (keys : List Key) :
    m.performAll (Command.presses keys) =
      (.replicate keys.length .done, keys.foldl pressKey m) := by
  induction keys generalizing m with
  | nil => rfl
  | cons key rest ih =>
    have hfirst : m.perform (.press key.code) = (.done, m.pressKey key) := by
      simp only [perform, press, Key.ofCode_code]
      rfl
    have hrest := ih (m.pressKey key)
    unfold Command.presses at hrest ⊢
    rw [List.map_cons, performAll, hfirst, hrest]
    rfl

/-- Releasing a key changes nothing but the keys. -/
theorem perform_release (m : Machine) (code : UInt8) :
    ∃ keys, (m.perform (.release code)).2 = { m with keys } := by
  simp only [perform, release]
  cases Key.ofCode code with
  | error fault => exact ⟨m.keys, rfl⟩
  | ok key => exact ⟨m.keys.release key, rfl⟩

/-- Taking the picture only marks it as seen. -/
theorem perform_takeFrame (m : Machine) :
    (m.perform .takeFrame).2 = { m with state := { m.state with drawn := false } } := by
  simp only [perform, takeFrame]
  split
  · rfl
  · next h => rw [← Bool.eq_false_iff.mpr h]

/-- With no history left, going back is refused and changes nothing. -/
theorem perform_rewind_nil {m : Machine} (h : m.history = []) :
    m.perform .rewind = (.rewound false, m) := by
  simp only [perform, rewind?, h]

/-- Going back to the latest entry of the history. -/
theorem perform_rewind_cons {m : Machine} {s : State} {older : List State}
    (h : m.history = s :: older) :
    m.perform .rewind = (.rewound true, ⟨{ s with drawn := true }, older, m.keys, none⟩) := by
  simp only [perform, rewind?, h]

/-- What each of some operations keeps, all of them in a row keep. -/
theorem after_preserves {P : Machine → Prop} {m : Machine} {commands : List Command} (h : P m)
    (hp : ∀ c ∈ commands, ∀ m, P m → P (m.perform c).2) : P (m.after commands) := by
  induction commands generalizing m with
  | nil => exact h
  | cons c rest ih =>
    rw [after_cons]
    exact ih (hp c (by simp) m h) fun d hd ↦ hp d (by simp [hd])

/-- Operations can be carried out in two parts. -/
theorem after_append (m : Machine) (a b : List Command) :
    m.after (a ++ b) = (m.after a).after b := by
  induction a generalizing m with
  | nil => rfl
  | cons c rest ih => exact ih (m.perform c).2

end Machine

end ChipEight
