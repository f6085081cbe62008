import ChipEight.Instruction.Decode
import ChipEight.Instruction.Execute

/-!
# The machine

A state with the keys, a history for stepping back and the fault that halted it, if one did. The
host owns the clock: a step runs one instruction and a tick counts the timers down once, in whatever
proportion the host chooses. A step that fails halts the machine; until a program is loaded or the
machine is rewound, its steps fail, quoting that fault, and its timers stand still.
-/

namespace ChipEight

/-- A machine. Its history lists earlier states, the latest first. -/
@[ext]
structure Machine where
  state : State
  history : List State
  keys : Keypad
  fault : Option Fault
  deriving DecidableEq

namespace Machine

/-- The greatest length of a history. -/
abbrev historyLimit : Nat := 600

/-- The machine on which nothing has been loaded. -/
def powerUp : Machine := ⟨.initial, [], .allUp, none⟩

/-- A fresh machine with a program loaded, unless the program is too long. -/
def ofRom (rom : List UInt8) : Except Fault Machine :=
  if Memory.romCapacity < rom.length then .error (.romTooLarge rom.length Memory.romCapacity)
  else do
    let state ← State.ofRom rom
    return { powerUp with state }

/-- The picture, if it has been drawn on since it was last taken; taking it marks it as seen. -/
def takeFrame (m : Machine) : Option Frame × Machine :=
  if m.state.drawn then (some m.state.frame, { m with state := { m.state with drawn := false } })
  else (none, m)

/-- The machine with a key held down. -/
def pressKey (m : Machine) (key : Key) : Machine := { m with keys := m.keys.press key }

/-- The machine with a key let go. -/
def releaseKey (m : Machine) (key : Key) : Machine := { m with keys := m.keys.release key }

/-- Press the key with a code, if there is one. -/
def press (m : Machine) (code : UInt8) : Except Fault Machine := (Key.ofCode code).map m.pressKey

/-- Release the key with a code, if there is one. -/
def release (m : Machine) (code : UInt8) : Except Fault Machine :=
  (Key.ofCode code).map m.releaseKey

/-- Whether a code belongs to a key that is down. -/
def isPressed (m : Machine) (code : UInt8) : Bool := (Key.ofCode? code).any m.keys.isDown

/-- The value of the register with a number, if there is one. -/
def register? (m : Machine) (number : UInt8) : Option UInt8 := m.state.v[number.toNat]?

/-- Whether the host should sound its buzzer. -/
def isBuzzing (m : Machine) : Bool := m.state.sound != 0

/-- The instruction at the program counter. -/
def currentInstruction (m : Machine) : Except Fault Instruction :=
  m.state.fetch.map Instruction.decode

/-- Whether the instruction at the program counter waits for a key and none is down. -/
def isAwaitingKey (m : Machine) : Bool :=
  match m.currentInstruction with
  | .ok (.awaitKey _) => m.keys.lowest?.isNone
  | _ => false

/-- Fetch, decode and execute the instruction at the program counter, halted or not. -/
def attempt (m : Machine) (noise : UInt8) : Except Fault (Instruction × State) := do
  let ins ← m.currentInstruction
  let next ← ins.execute m.state m.keys noise
  return (ins, next)

/-- The machine in its next state. The present state goes into the history if it differs from the
next, and the oldest entry leaves a full history. -/
def advanceTo (m : Machine) (next : State) : Machine :=
  if next = m.state then m
  else { m with state := next, history := (m.state :: m.history).take historyLimit }

/-- Run one instruction. The byte `noise` is what a random instruction draws. -/
def step (m : Machine) (noise : UInt8) : Except Fault Instruction × Machine :=
  match m.fault with
  | some fault => (.error (.halted fault), m)
  | none =>
    match m.attempt noise with
    | .error fault => (.error fault, { m with fault := some fault })
    | .ok (ins, next) => (.ok ins, m.advanceTo next)

/-- Run up to `remaining` more instructions after the first `done`, but none after a fault. Gives
the number of instructions run, what the last step answered, and the machine after it. -/
def stepsFrom (noise : Nat → UInt8) :
    (remaining done : Nat) → Option (Except Fault Instruction) → Machine →
      Nat × Option (Except Fault Instruction) × Machine
  | 0, done, last, m => (done, last, m)
  | remaining + 1, done, _, m =>
    match m.step (noise done) with
    | (.ok ins, next) => stepsFrom noise remaining (done + 1) (some (.ok ins)) next
    | (.error fault, halted) => (done, some (.error fault), halted)

/-- Run up to `count` instructions, but none after a fault. -/
def steps (noise : Nat → UInt8) (count : Nat) (m : Machine) :
    Nat × Option (Except Fault Instruction) × Machine :=
  stepsFrom noise count 0 none m

/-- Count the timers down once, unless the machine is halted. -/
def tick (m : Machine) : Machine :=
  match m.fault with
  | some _ => m
  | none => { m with state := m.state.tick }

/-- Go back to the latest state in the history, if there is one. The picture counts as drawn on,
since it may have changed, and the fault is gone with the state that raised it. -/
def rewind? (m : Machine) : Option Machine :=
  match m.history with
  | [] => none
  | s :: older => some { m with state := { s with drawn := true }, history := older, fault := none }

/-- Go back up to `count` states, and tell how many it was. -/
def rewindBy : Nat → Machine → Nat × Machine
  | 0, m => (0, m)
  | count + 1, m =>
    match m.rewind? with
    | none => (0, m)
    | some earlier =>
      let rest := rewindBy count earlier
      (rest.1 + 1, rest.2)

/-- Every program that fits is loaded: into memory, over the zeros behind its start. -/
theorem ofRom_of_length_le {rom : List UInt8} (h : rom.length ≤ Memory.romCapacity) :
    ofRom rom = .ok { powerUp with
      state := { State.initial with
        memory := ⟨Memory.overwrite Memory.initial.bytes Memory.programStart rom⟩ } } := by
  have hfits : State.initial.pc.toNat + rom.length ≤ Memory.size :=
    Nat.add_le_add_left h Memory.programStart
  rw [ofRom, if_neg (Nat.not_lt.mpr h), State.ofRom, Memory.write, if_pos hfits]
  rfl

/-- Loading a program changes the memory of a fresh machine and nothing else. -/
theorem eq_powerUp_of_ofRom {rom : List UInt8} {m : Machine} (h : ofRom rom = .ok m) :
    ∃ memory, m = { powerUp with state := { State.initial with memory } } := by
  unfold ofRom at h
  split at h
  · cases h
  · obtain ⟨state, hs, h⟩ := Fault.ok_of_bind_eq_ok h
    cases h
    obtain ⟨memory, -, hs⟩ := Fault.ok_of_bind_eq_ok hs
    cases hs
    exact ⟨memory, rfl⟩

/-- A freshly loaded machine has no history. -/
theorem history_ofRom {rom : List UInt8} {m : Machine} (h : ofRom rom = .ok m) :
    m.history = [] := by
  obtain ⟨memory, rfl⟩ := eq_powerUp_of_ofRom h
  rfl

/-- Pressing keys one after the other presses them on the keypad. -/
theorem foldl_pressKey_eq (held : List Key) (m : Machine) :
    held.foldl pressKey m = { m with keys := held.foldl Keypad.press m.keys } := by
  induction held generalizing m with
  | nil => rfl
  | cons key rest ih => exact ih (m.pressKey key)

/-- Pressing keys changes nothing but the keys. -/
theorem foldl_pressKey (held : List Key) (m : Machine) :
    ∃ keys, held.foldl pressKey m = { m with keys } :=
  ⟨_, foldl_pressKey_eq held m⟩

/-- Pressing keys leaves the history as it is. -/
theorem history_foldl_pressKey (held : List Key) (m : Machine) :
    (held.foldl pressKey m).history = m.history := by
  obtain ⟨keys, hk⟩ := foldl_pressKey held m
  rw [hk]

/-- What taking the picture gives is the picture of the present state, if it counts as drawn on. -/
theorem takeFrame_eq_some_iff (m : Machine) (picture : Frame) :
    m.takeFrame.1 = some picture ↔ m.state.drawn = true ∧ m.state.frame = picture := by
  unfold takeFrame
  split
  · next hd =>
    rw [Option.some.injEq]
    exact ⟨fun h ↦ ⟨hd, h⟩, fun h ↦ h.2⟩
  · next hd => exact ⟨nofun, fun h ↦ absurd h.1 hd⟩

/-- Taking the picture gives nothing if it does not count as drawn on. -/
theorem takeFrame_eq_none_iff (m : Machine) :
    m.takeFrame.1 = none ↔ m.state.drawn = false := by
  unfold takeFrame
  split
  · next hd => exact ⟨nofun, fun h ↦ absurd (hd.symm.trans h) nofun⟩
  · next hd => exact ⟨fun _ ↦ Bool.eq_false_iff.mpr hd, fun _ ↦ rfl⟩

/-- A machine that advances ends up in its next state. -/
theorem state_advanceTo (m : Machine) (next : State) : (m.advanceTo next).state = next := by
  unfold advanceTo
  split
  · next h => exact h.symm
  · rfl

/-- Advancing leaves the recorded fault as it is. -/
theorem fault_advanceTo (m : Machine) (next : State) : (m.advanceTo next).fault = m.fault := by
  unfold advanceTo
  split <;> rfl

/-- Advancing to the present state does nothing. -/
theorem advanceTo_self (m : Machine) : m.advanceTo m.state = m := if_pos rfl

/-- A halted machine is not ticked. -/
theorem tick_of_fault {m : Machine} {fault : Fault} (h : m.fault = some fault) : m.tick = m := by
  rw [tick, h]

/-- A running machine is ticked by counting its timers down. -/
theorem tick_of_fault_eq_none {m : Machine} (h : m.fault = none) :
    m.tick = { m with state := m.state.tick } := by
  rw [tick, h]

/-- The instruction at the program counter succeeds only if its word lies within memory, and it is
decoded from that word. -/
theorem decode_of_currentInstruction {m : Machine} {ins : Instruction}
    (h : m.currentInstruction = .ok ins) :
    m.state.pc.toNat + 2 ≤ Memory.size ∧ ∃ w, ins = Instruction.decode w := by
  cases hw : m.state.fetch with
  | error fault =>
    rw [currentInstruction, hw] at h
    cases h
  | ok w =>
    rw [currentInstruction, hw] at h
    cases h
    exact ⟨Memory.add_two_le_of_readWord hw, w, rfl⟩

/-- A step whose instruction succeeds. -/
theorem step_of_execute {m : Machine} {ins : Instruction} {next : State} {noise : UInt8}
    (hf : m.fault = none) (hc : m.currentInstruction = .ok ins)
    (he : ins.execute m.state m.keys noise = .ok next) :
    m.step noise = (.ok ins, m.advanceTo next) := by
  have ha : m.attempt noise = .ok (ins, next) := by
    rw [attempt, hc]
    change ins.execute m.state m.keys noise >>= _ = _
    rw [he]
    rfl
  rw [step, hf, ha]

/-- A step whose instruction fails. -/
theorem step_of_attempt_eq_error {m : Machine} {noise : UInt8} {fault : Fault}
    (hf : m.fault = none) (ha : m.attempt noise = .error fault) :
    m.step noise = (.error fault, { m with fault := some fault }) := by
  rw [step, hf, ha]

/-- A step of a halted machine. -/
theorem step_of_fault {m : Machine} {fault : Fault} (h : m.fault = some fault) (noise : UInt8) :
    m.step noise = (.error (.halted fault), m) := by
  rw [step, h]

/-- A step finds the machine halted, or faults and halts it, or runs the instruction at the program
counter. -/
theorem step_cases (m : Machine) (noise : UInt8) :
    (∃ fault, m.fault = some fault ∧ m.step noise = (.error (.halted fault), m)) ∨
    (∃ fault, m.fault = none ∧ m.attempt noise = .error fault ∧
      m.step noise = (.error fault, { m with fault := some fault })) ∨
    ∃ ins next, m.fault = none ∧ m.currentInstruction = .ok ins ∧
      ins.execute m.state m.keys noise = .ok next ∧
      m.step noise = (.ok ins, m.advanceTo next) := by
  cases hf : m.fault with
  | some fault => exact .inl ⟨fault, rfl, step_of_fault hf noise⟩
  | none =>
    cases ha : m.attempt noise with
    | error fault => exact .inr (.inl ⟨fault, rfl, rfl, step_of_attempt_eq_error hf ha⟩)
    | ok result =>
      obtain ⟨ins, hc, h⟩ := Fault.ok_of_bind_eq_ok ha
      obtain ⟨next, he, -⟩ := Fault.ok_of_bind_eq_ok h
      exact .inr (.inr ⟨ins, next, rfl, hc, he, step_of_execute hf hc he⟩)

/-- A step that fails keeps the state. -/
theorem state_of_step_eq_error {m halted : Machine} {noise : UInt8} {fault : Fault}
    (h : m.step noise = (.error fault, halted)) : halted.state = m.state := by
  rcases m.step_cases noise with
    ⟨_, hf, hs⟩ | ⟨_, hf, ha, hs⟩ | ⟨ins, next, hf, hc, he, hs⟩
  · rw [h] at hs
    cases hs
    rfl
  · rw [h] at hs
    cases hs
    rfl
  · rw [h] at hs
    cases hs

/-- A step that answers an instruction has run it on a machine that was not halted. -/
theorem exists_execute_of_step {m : Machine} {noise : UInt8} {ins : Instruction}
    (h : (m.step noise).1 = .ok ins) :
    m.fault = none ∧ m.currentInstruction = .ok ins ∧
      ∃ next, ins.execute m.state m.keys noise = .ok next ∧
        m.step noise = (.ok ins, m.advanceTo next) := by
  rcases m.step_cases noise with
    ⟨fault, hf, hs⟩ | ⟨fault, hf, ha, hs⟩ | ⟨ran, next, hf, hc, he, hs⟩
  · rw [hs] at h
    cases h
  · rw [hs] at h
    cases h
  · rw [hs] at h
    cases h
    exact ⟨hf, hc, next, he, hs⟩

end Machine

end ChipEight
