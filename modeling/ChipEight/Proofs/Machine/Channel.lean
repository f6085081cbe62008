import ChipEight.Proofs.Machine.Veil

/-!
# Time and keys

Besides its bytes, a program learns of the world only through the timers, which the host counts
down, and through the keys. It can read the former with one instruction and the latter with three.
A program that runs none of them does the same whatever the clock or the keys do: all other
operations answer alike, and the machine ends up the same but for its timers, or for its keys.
-/

namespace ChipEight

/-- What a host does to a running program: let time pass, and move keys. -/
inductive Channel where
  | time
  | keys
  deriving DecidableEq

/-- The state with its timers run out. -/
def State.timeless (s : State) : State := { s with delay := 0, sound := 0 }

/-- The machine with its timers run out, now and in all earlier states, or with all its keys up. -/
def Machine.without (m : Machine) : Channel → Machine
  | .time => { m with state := m.state.timeless, history := m.history.map State.timeless }
  | .keys => { m with keys := .allUp }

namespace Channel

/-- Whether an operation acts on a channel and on nothing else. -/
def carries : Channel → Command → Bool
  | .time, .tick => true
  | .keys, .press _ => true
  | .keys, .release _ => true
  | _, _ => false

/-- Whether an instruction reads what a channel brings. -/
def informs : Channel → Instruction → Bool
  | .time, .getDelay _ => true
  | .keys, .skip (.keyDown _) => true
  | .keys, .skip (.keyUp _) => true
  | .keys, .awaitKey _ => true
  | _, _ => false

/-! ### Instructions that do not read the keys -/

private theorem execute_allUp {ins : Instruction} (s : State) (k : Keypad) (noise : UInt8)
    (h : keys.informs ins = false) : ins.execute s .allUp noise = ins.execute s k noise := by
  cases ins with
  | skip condition => cases condition with
    | keyDown x => cases h
    | keyUp x => cases h
    | _ => rfl
  | awaitKey x => cases h
  | _ => rfl

private theorem stalls_allUp {ins : Instruction} (s : State) (k : Keypad)
    (h : keys.informs ins = false) : ins.Stalls s .allUp ↔ ins.Stalls s k := by
  cases ins with
  | awaitKey x => cases h
  | _ => exact Iff.rfl

/-! ### Channels as veils -/

/-- A veil over the keys. -/
def keypad : Veil where
  toKeyVeil := .dark
  state := id
  reads := keys.informs
  fetch_state _ := rfl
  fault?_state _ := rfl
  state_tick _ := rfl
  state_drawn _ _ := rfl
  stalls_iff := stalls_allUp
  map_execute s k noise h := congrArg (Except.map id) (execute_allUp s k noise h)

/-- The veil over what a channel brings. -/
def veil : Channel → Veil
  | .time => .mask true false
  | .keys => keypad

private theorem reads_veil (ch : Channel) : ch.veil.reads = ch.informs := by
  cases ch with
  | time =>
    ext ins
    cases ins <;> rfl
  | keys => rfl

private theorem through_veil (ch : Channel) (m : Machine) : m.through ch.veil = m.without ch := by
  cases ch with
  | time => rfl
  | keys =>
    change (⟨_, m.history.map id, _, _⟩ : Machine) = _
    rw [List.map_id]
    rfl

private theorem through_perform_of_carries (ch : Channel) (m : Machine) {c : Command}
    (h : ch.carries c = true) : (m.perform c).2.through ch.veil = m.through ch.veil := by
  cases ch with
  | time =>
    cases c with
    | tick =>
      change m.tick.through (.mask true false) = m.through (.mask true false)
      cases hf : m.fault with
      | some fault => rw [Machine.tick_of_fault hf]
      | none =>
        rw [Machine.tick_of_fault_eq_none hf]
        rfl
    | _ => cases h
  | keys =>
    cases c with
    | press code =>
      obtain ⟨pressed, hp⟩ := m.perform_press code
      rw [hp]
      rfl
    | release code =>
      obtain ⟨released, hr⟩ := m.perform_release code
      rw [hr]
      rfl
    | _ => cases h

private theorem picture_of_veil (ch : Channel) {s t : State}
    (h : ch.veil.state s = ch.veil.state t) :
    s.drawn = t.drawn ∧ s.frame = t.frame := by
  cases ch with
  | time =>
    have hdrawn := congrArg State.drawn h
    have hframe := congrArg State.frame h
    exact ⟨hdrawn, hframe⟩
  | keys => exact ⟨congrArg State.drawn h, congrArg State.frame h⟩

end Channel

namespace Machine

/-- Time and input reach a program only through their own instructions. Two sequences of operations
that differ only in when the timers are counted down, or only in how keys are moved, have the same
other exchanges and lead from power-up to the same machine, but for the timers of its states or for
its keys, unless a step of one of them runs an instruction that reads the delay timer or the
keys. -/
theorem channel_inert (ch : Channel) {a b : List Command}
    (h : a.filter (fun c ↦ !ch.carries c) = b.filter (fun c ↦ !ch.carries c))
    (ha : ∀ e ∈ powerUp.transcript a, e.ran?.any ch.informs = false)
    (hb : ∀ e ∈ powerUp.transcript b, e.ran?.any ch.informs = false) :
    (powerUp.transcript a).filter (fun e ↦ !ch.carries e.command) =
        (powerUp.transcript b).filter (fun e ↦ !ch.carries e.command) ∧
      (powerUp.after a).without ch = (powerUp.after b).without ch := by
  rw [← ch.through_veil, ← ch.through_veil]
  rw [← ch.reads_veil] at ha hb
  exact transcript_congr ch.carries (fun m c hc ↦ ch.through_perform_of_carries m hc)
    (.inr fun s t hs ↦ ch.picture_of_veil hs) h ha hb

/-- A program that sets the delay timer, faults and is taken back does so alike whether or not time
passes, and whether or not keys are moved. -/
theorem channel_inert_of_timer_set :
    let rom : List UInt8 := [0x60, 0x05, 0xF0, 0x15, 0x00, 0xEE]
    let plain : List Command := [.load rom, .step 0, .step 0, .step 0, .rewind]
    let ticked : List Command :=
      [.load rom, .step 0, .tick, .step 0, .tick, .step 0, .tick, .rewind]
    let keyed : List Command :=
      [.press 2, .load rom, .step 0, .press 5, .step 0, .press 16, .step 0, .release 5, .rewind]
    ((∀ e ∈ powerUp.transcript ticked, e.ran?.any Channel.time.informs = false) ∧
      (powerUp.after ticked).without .time = (powerUp.after plain).without .time) ∧
    ((∀ e ∈ powerUp.transcript keyed, e.ran?.any Channel.keys.informs = false) ∧
      (powerUp.after keyed).without .keys = (powerUp.after plain).without .keys) := by
  intro rom plain ticked keyed
  have htime : ∀ e ∈ powerUp.transcript ticked, e.ran?.any Channel.time.informs = false := by
    decide +kernel +zetaReduce
  have hkeys : ∀ e ∈ powerUp.transcript keyed, e.ran?.any Channel.keys.informs = false := by
    decide +kernel +zetaReduce
  have hplain (ch : Channel) :
      ∀ e ∈ powerUp.transcript plain, e.ran?.any ch.informs = false := by
    cases ch <;> decide +kernel +zetaReduce
  have hticked : ticked.filter (fun c ↦ !Channel.time.carries c) =
      plain.filter fun c ↦ !Channel.time.carries c := by decide +zetaReduce
  have hkeyed : keyed.filter (fun c ↦ !Channel.keys.carries c) =
      plain.filter fun c ↦ !Channel.keys.carries c := by decide +zetaReduce
  exact ⟨⟨htime, (channel_inert .time hticked htime (hplain .time)).2⟩,
    ⟨hkeys, (channel_inert .keys hkeyed hkeys (hplain .keys)).2⟩⟩

end Machine

end ChipEight
