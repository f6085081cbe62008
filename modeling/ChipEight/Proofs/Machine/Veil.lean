import ChipEight.Proofs.Instruction.Effect
import ChipEight.Proofs.Machine.Halt

/-!
# Veils

A veil hides a part of states and keys. Only some instructions look behind it; all others do the
same, as far as can be seen, whatever the veil hides. Machines that look the same through a veil
then give the same answers and go on to look the same, as long as they run none of the instructions
that look behind it. So what a host does behind the veil only, at whatever time and however often,
leaves no trace in front of it.
-/

namespace ChipEight

/-- A way to hide keys that stays the same whatever keys are moved. -/
structure KeyVeil where
  keys : Keypad → Keypad
  keys_press (k : Keypad) (key : Key) : keys ((keys k).press key) = keys (k.press key)
  keys_release (k : Keypad) (key : Key) : keys ((keys k).release key) = keys (k.release key)

namespace KeyVeil

/-- All keys stay in sight. -/
def clear : KeyVeil := ⟨id, fun _ _ ↦ rfl, fun _ _ ↦ rfl⟩

/-- No key stays in sight. -/
def dark : KeyVeil := ⟨fun _ ↦ .allUp, fun _ _ ↦ rfl, fun _ _ ↦ rfl⟩

end KeyVeil

/-- A way to hide a part of states and of keys. Fetching and failing do not depend on that part, and
the instructions that may otherwise depend on it are those that read it. -/
structure Veil extends KeyVeil where
  state : State → State
  reads : Instruction → Bool
  fetch_state (s : State) : (state s).fetch = s.fetch
  fault?_state (s : State) : (state s).fault? = s.fault?
  state_tick (s : State) : state (state s).tick = state s.tick
  state_drawn (s : State) (drawn : Bool) :
    state { state s with drawn } = state { s with drawn }
  stalls_iff {ins : Instruction} (s : State) (k : Keypad) (h : reads ins = false) :
    ins.Stalls (state s) (keys k) ↔ ins.Stalls s k
  map_execute {ins : Instruction} (s : State) (k : Keypad) (noise : UInt8)
    (h : reads ins = false) :
    (ins.execute (state s) (keys k) noise).map state = (ins.execute s k noise).map state

/-- The machine as it looks through a veil, its earlier states included. -/
def Machine.through (m : Machine) (v : Veil) : Machine :=
  ⟨v.state m.state, m.history.map v.state, v.keys m.keys, m.fault⟩

namespace Veil

variable {v : Veil} {s t : State} {k l : Keypad} {ins : Instruction}

private theorem fetch_congr (h : v.state s = v.state t) : s.fetch = t.fetch := by
  rw [← v.fetch_state s, h, v.fetch_state]

private theorem fault?_congr (h : v.state s = v.state t) : s.fault? = t.fault? := by
  rw [← v.fault?_state s, h, v.fault?_state]

private theorem tick_congr (h : v.state s = v.state t) : v.state s.tick = v.state t.tick := by
  rw [← v.state_tick s, h, v.state_tick]

private theorem drawn_congr (h : v.state s = v.state t) (drawn : Bool) :
    v.state { s with drawn } = v.state { t with drawn } := by
  rw [← v.state_drawn s, h, v.state_drawn]

private theorem press_congr (h : v.keys k = v.keys l) (key : Key) :
    v.keys (k.press key) = v.keys (l.press key) := by
  rw [← v.keys_press k, h, v.keys_press]

private theorem release_congr (h : v.keys k = v.keys l) (key : Key) :
    v.keys (k.release key) = v.keys (l.release key) := by
  rw [← v.keys_release k, h, v.keys_release]

private theorem stalls_congr (hr : v.reads ins = false) (hs : v.state s = v.state t)
    (hk : v.keys k = v.keys l) : ins.Stalls s k ↔ ins.Stalls t l := by
  rw [← v.stalls_iff s k hr, hs, hk, v.stalls_iff t l hr]

private theorem execute_congr {noise : UInt8} {next : State} (hr : v.reads ins = false)
    (hs : v.state s = v.state t) (hk : v.keys k = v.keys l)
    (he : ins.execute s k noise = .ok next) :
    ∃ other, ins.execute t l noise = .ok other ∧ v.state next = v.state other := by
  have hm : (ins.execute s k noise).map v.state = (ins.execute t l noise).map v.state := by
    rw [← v.map_execute s k noise hr, hs, hk, v.map_execute t l noise hr]
  rw [he] at hm
  cases ho : ins.execute t l noise with
  | error fault =>
    rw [ho] at hm
    cases hm
  | ok other =>
    rw [ho] at hm
    exact ⟨other, rfl, Except.ok.inj hm⟩

end Veil

/-! ### Veils over timers and the draw flag -/

/-- The state with its timers run out, or as if its picture had just been taken, or both. -/
def State.masked (timers flag : Bool) (s : State) : State :=
  { s with
    delay := bif timers then 0 else s.delay
    sound := bif timers then 0 else s.sound
    drawn := bif flag then false else s.drawn }

namespace Instruction

/-- Whether an instruction reads a timer. -/
def readsDelay : Instruction → Bool
  | .getDelay _ => true
  | _ => false

variable {timers flag : Bool}

private theorem holds_masked (condition : Condition) (s : State) (k : Keypad) :
    condition.holds (s.masked timers flag) k = condition.holds s k := by
  cases condition <;> rfl

/-- Only one instruction reads a timer, and none reads the draw flag. -/
theorem map_masked_execute {ins : Instruction} (s : State) (k : Keypad) (noise : UInt8)
    (h : (timers && ins.readsDelay) = false) :
    (ins.execute (s.masked timers flag) k noise).map (State.masked timers flag) =
      (ins.execute s k noise).map (State.masked timers flag) := by
  -- Whatever an instruction writes to the masked fields is masked afterwards, and masking twice is
  -- masking once.
  cases ins with
  | getDelay x =>
    cases timers with
    | true => cases h
    | false => cases flag <;> rfl
  | ret => exact Fault.map_bind_congr fun _ ↦ by cases timers <;> cases flag <;> rfl
  | call address => exact Fault.map_bind_congr fun _ ↦ by cases timers <;> cases flag <;> rfl
  | skip condition =>
    simp only [execute, holds_masked]
    split <;> cases timers <;> cases flag <;> rfl
  | combine how x y => cases how <;> cases timers <;> cases flag <;> rfl
  | draw x y height => exact Fault.map_bind_congr fun _ ↦ by cases timers <;> cases flag <;> rfl
  | awaitKey x =>
    simp only [execute]
    cases k.lowest? <;> cases timers <;> cases flag <;> rfl
  | storeDecimal x => exact Fault.map_bind_congr fun _ ↦ by cases timers <;> cases flag <;> rfl
  | storeRegs x => exact Fault.map_bind_congr fun _ ↦ by cases timers <;> cases flag <;> rfl
  | loadRegs x => exact Fault.map_bind_congr fun _ ↦ by cases timers <;> cases flag <;> rfl
  | _ => cases timers <;> cases flag <;> rfl

end Instruction

/-- A veil over the timers, over the draw flag or over both. -/
def Veil.mask (timers flag : Bool) : Veil where
  toKeyVeil := .clear
  state := State.masked timers flag
  reads ins := timers && ins.readsDelay
  fetch_state _ := rfl
  fault?_state _ := rfl
  state_tick _ := by cases timers <;> cases flag <;> rfl
  state_drawn _ _ := by cases timers <;> cases flag <;> rfl
  stalls_iff {ins} _ _ _ := by cases ins <;> exact Iff.rfl
  map_execute := Instruction.map_masked_execute

namespace Machine

variable {v : Veil} {m n : Machine}

private theorem through_advanceTo (h : m.through v = n.through v) {s t : State}
    (hst : v.state s = v.state t) (hstay : s = m.state ↔ t = n.state) :
    (m.advanceTo s).through v = (n.advanceTo t).through v := by
  unfold advanceTo
  by_cases hs : s = m.state
  · rw [if_pos hs, if_pos (hstay.mp hs)]
    exact h
  · rw [if_neg hs, if_neg (mt hstay.mpr hs)]
    obtain ⟨hstate, hhistory, hkeys, hfault⟩ := Machine.mk.inj h
    simp only [through, List.map_take, List.map_cons, hst, hstate, hhistory, hkeys, hfault]

/-- Steps of machines that look the same answer alike and lead to machines that look the same,
unless they run an instruction that looks behind the veil. -/
theorem step_congr (h : m.through v = n.through v) {noise : UInt8}
    (hr : ∀ ins, (m.step noise).1 = .ok ins → v.reads ins = false) :
    (m.step noise).1 = (n.step noise).1 ∧
      (m.step noise).2.through v = (n.step noise).2.through v := by
  obtain ⟨hstate, hhistory, hkeys, hfault⟩ := Machine.mk.inj h
  rcases m.step_cases noise with
    ⟨fault, hf, hs⟩ | ⟨fault, hf, ha, hs⟩ | ⟨ins, next, hf, hc, he, hs⟩
  · rw [hs, step_of_fault (hfault.symm.trans hf)]
    exact ⟨rfl, h⟩
  · have ha' : n.attempt noise = .error fault := by
      rw [attempt_eq_error_iff, ← Veil.fault?_congr hstate]
      exact (m.attempt_eq_error_iff noise fault).mp ha
    rw [hs, step_of_attempt_eq_error (hfault.symm.trans hf) ha']
    exact ⟨rfl, congrArg (fun m : Machine ↦ { m with fault := some fault }) h⟩
  · have hread : v.reads ins = false := hr ins (by rw [hs])
    have hc' : n.currentInstruction = .ok ins := by
      rw [← hc, currentInstruction, currentInstruction, Veil.fetch_congr hstate]
    obtain ⟨other, he', hn⟩ := Veil.execute_congr hread hstate hkeys he
    have hstay : next = m.state ↔ other = n.state :=
      (Instruction.eq_self_iff_stalls he).trans
        ((Veil.stalls_congr hread hstate hkeys).trans (Instruction.eq_self_iff_stalls he').symm)
    rw [hs, step_of_execute (hfault.symm.trans hf) hc' he']
    exact ⟨rfl, through_advanceTo h hn hstay⟩

/-- Machines that look the same give the same answers and go on to look the same, unless they run an
instruction that looks behind the veil, or show a picture that it hides. -/
theorem perform_congr (h : m.through v = n.through v) {c : Command}
    (hr : (m.exchange c).ran?.any v.reads = false)
    (ht : c = .takeFrame → m.state.drawn = n.state.drawn ∧ m.state.frame = n.state.frame) :
    m.exchange c = n.exchange c ∧ (m.perform c).2.through v = (n.perform c).2.through v := by
  obtain ⟨hstate, hhistory, hkeys, hfault⟩ := Machine.mk.inj h
  cases c with
  | powerUp => exact ⟨rfl, rfl⟩
  | load rom =>
    simp only [exchange, perform]
    cases ofRom rom with
    | error fault => exact ⟨rfl, h⟩
    | ok fresh => exact ⟨rfl, rfl⟩
  | step noise =>
    have hran (ins : Instruction) (ho : (m.step noise).1 = .ok ins) : v.reads ins = false := by
      rwa [ran?_exchange_step, ho] at hr
    obtain ⟨ha, hn⟩ := step_congr h hran
    rw [perform_step, perform_step, exchange, exchange, answer_step, answer_step, ha]
    exact ⟨rfl, hn⟩
  | tick =>
    refine ⟨rfl, ?_⟩
    change m.tick.through v = n.tick.through v
    cases hf : m.fault with
    | some fault => rwa [tick_of_fault hf, tick_of_fault (hfault.symm.trans hf)]
    | none =>
      rw [tick_of_fault_eq_none hf, tick_of_fault_eq_none (hfault.symm.trans hf)]
      simp only [through, Veil.tick_congr hstate, hhistory, hkeys, hfault]
  | press code =>
    simp only [exchange, perform, press]
    cases Key.ofCode code with
    | error fault => exact ⟨rfl, h⟩
    | ok key =>
      refine ⟨rfl, ?_⟩
      change (m.pressKey key).through v = (n.pressKey key).through v
      simp only [through, pressKey, Veil.press_congr hkeys, hstate, hhistory, hfault]
  | release code =>
    simp only [exchange, perform, release]
    cases Key.ofCode code with
    | error fault => exact ⟨rfl, h⟩
    | ok key =>
      refine ⟨rfl, ?_⟩
      change (m.releaseKey key).through v = (n.releaseKey key).through v
      simp only [through, releaseKey, Veil.release_congr hkeys, hstate, hhistory, hfault]
  | takeFrame =>
    obtain ⟨hdrawn, hframe⟩ := ht rfl
    refine ⟨?_, ?_⟩
    · simp only [exchange, perform, takeFrame, hdrawn, hframe]
      split <;> rfl
    · rw [perform_takeFrame, perform_takeFrame]
      simp only [through, Veil.drawn_congr hstate, hhistory, hkeys, hfault]
  | rewind =>
    cases hh : m.history with
    | nil =>
      have hh' : n.history = [] := by
        rw [hh, List.map_nil] at hhistory
        exact List.map_eq_nil_iff.mp hhistory.symm
      rw [exchange, exchange, perform_rewind_nil hh, perform_rewind_nil hh']
      exact ⟨rfl, h⟩
    | cons s older =>
      rw [hh, List.map_cons] at hhistory
      obtain ⟨t, rest, hh', ht, hrest⟩ := List.map_eq_cons_iff.mp hhistory.symm
      rw [exchange, exchange, perform_rewind_cons hh, perform_rewind_cons hh']
      refine ⟨rfl, ?_⟩
      simp only [through, Veil.drawn_congr ht.symm, hrest, hkeys]

/-- What is done behind a veil leaves no trace in front of it. Two sequences of operations that
differ only in such as have no visible effect have the same other exchanges and lead to machines
that look the same, unless an instruction looks behind the veil. -/
theorem transcript_congr (blind : Command → Bool)
    (hblind : ∀ (m : Machine) c, blind c = true → (m.perform c).2.through v = m.through v)
    (hframe : blind .takeFrame = true ∨
      ∀ s t, v.state s = v.state t → s.drawn = t.drawn ∧ s.frame = t.frame)
    {a b : List Command} (h : a.filter (fun c ↦ !blind c) = b.filter (fun c ↦ !blind c))
    (ha : ∀ e ∈ m.transcript a, e.ran?.any v.reads = false)
    (hb : ∀ e ∈ m.transcript b, e.ran?.any v.reads = false) :
    (m.transcript a).filter (fun e ↦ !blind e.command) =
        (m.transcript b).filter (fun e ↦ !blind e.command) ∧
      (m.after a).through v = (m.after b).through v := by
  have hsame (m n : Machine) (c : Command) (hc : blind c = false)
      (hr : (m.exchange c).ran?.any v.reads = false)
      (hmn : m.through v = n.through v) :
      m.exchange c = n.exchange c ∧ (m.perform c).2.through v = (n.perform c).2.through v := by
    apply perform_congr hmn hr
    rintro rfl
    rcases hframe with hf | hf
    · rw [hf] at hc
      cases hc
    · exact hf m.state n.state (congrArg Machine.state hmn)
  have hview : m.through v = m.through v := rfl
  obtain ⟨hta, hma⟩ := transcript_filter (·.through v) blind _ hblind hsame hview ha
  obtain ⟨htb, hmb⟩ := transcript_filter (·.through v) blind _ hblind hsame hview hb
  rw [hta, htb, hma, hmb, h]
  exact ⟨rfl, rfl⟩

end Machine

end ChipEight
