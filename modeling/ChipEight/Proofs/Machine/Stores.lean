import ChipEight.Proofs.Instruction.Footprint
import ChipEight.Proofs.Machine.Transition

/-!
# Stored bytes

Which bytes of memory a run changes: only those to which an instruction stores. A run may also bring
earlier states back, but these come from the same run, so a byte that all states hold at its start
is held by all states at its end, unless an instruction has stored to its address in between.
-/

namespace ChipEight

/-- Whether an instruction has stored to an address when it ran. -/
def Execution.storesTo (x : Execution) (address : Nat) : Bool := x.ins.storesTo x.state address

namespace Machine

/-- All states of a machine, present and earlier, hold a byte at an address. -/
def HoldsByte (m : Machine) (address : Nat) (byte : UInt8) : Prop :=
  ∀ s ∈ m.state :: m.history, s.memory.bytes[address]? = some byte

variable {m next : Machine} {e : Exchange} {address : Nat}

/-- A byte of memory stays as it is in every transition other than going back or beginning anew,
unless an instruction stores to its address. -/
theorem Transition.memory_eq (h : m.Transition e next) (hn : e.restarts = false)
    (hb : e.restores = false)
    (hs : ∀ ins, e.ran? = some ins → ins.storesTo m.state address = false) :
    next.state.memory.bytes[address]? = m.state.memory.bytes[address]? := by
  cases h with
  | restart memory hr =>
    rw [hn] at hr
    cases hr
  | run hf hc he =>
    rw [state_advanceTo]
    exact (Instruction.footprint_of_execute he).memory address (hs _ rfl)
  | restore hh => cases hb
  | _ => rfl

private theorem Transition.history_subset (h : m.Transition e next) :
    next.history ⊆ m.state :: m.history := by
  cases h with
  | restart memory hr => exact List.nil_subset _
  | run hf hc he =>
    unfold advanceTo
    split
    · exact List.subset_cons_self _ _
    · exact List.take_subset _ _
  | restore hh =>
    rw [hh]
    exact List.subset_cons_of_subset _ (List.subset_cons_self _ _)
  | _ => exact List.subset_cons_self _ _

/-- A byte that all states of a machine hold is held by all of them after every transition that does
not begin anew, unless an instruction stores to its address. -/
theorem HoldsByte.transition {byte : UInt8} (h : m.HoldsByte address byte)
    (ht : m.Transition e next) (hn : e.restarts = false)
    (hs : ∀ ins, e.ran? = some ins → ins.storesTo m.state address = false) :
    next.HoldsByte address byte := by
  have hpresent : next.state.memory.bytes[address]? = some byte := by
    cases hb : e.restores with
    | false => exact (ht.memory_eq hn hb hs).trans (h m.state List.mem_cons_self)
    | true =>
      cases ht with
      | @restore s older hh =>
        apply h s
        rw [hh]
        exact List.mem_cons_of_mem _ List.mem_cons_self
      | restart memory hr =>
        rw [hn] at hr
        cases hr
      | refuse _ _ => exact h m.state List.mem_cons_self
      | _ => cases hb
  intro s hm
  rcases List.mem_cons.mp hm with rfl | hm
  · exact hpresent
  · exact h s (ht.history_subset hm)

/-- A byte that all states of a machine hold is held by all of them after operations that do not
begin anew, unless an instruction stores to its address. -/
theorem HoldsByte.after {byte : UInt8} {commands : List Command} (h : m.HoldsByte address byte)
    (hn : ∀ e ∈ m.transcript commands, e.restarts = false)
    (hs : ∀ x ∈ m.executions commands, x.storesTo address = false) :
    (m.after commands).HoldsByte address byte := by
  induction commands generalizing m with
  | nil => exact h
  | cons c rest ih =>
    obtain ⟨hnfirst, hnrest⟩ := List.forall_mem_cons.mp hn
    obtain ⟨hsfirst, hsrest⟩ := forall_mem_executions_cons.mp hs
    exact ih (h.transition (m.transition_perform c) hnfirst hsfirst) hnrest hsrest

/-- A byte of memory stays as it is under operations that go forward, unless an instruction stores
to its address. -/
theorem memory_after {commands : List Command} (hc : ∀ c ∈ commands, c.isForward = true)
    (hs : ∀ x ∈ m.executions commands, x.storesTo address = false) :
    (m.after commands).state.memory.bytes[address]? = m.state.memory.bytes[address]? := by
  induction commands generalizing m with
  | nil => rfl
  | cons c rest ih =>
    obtain ⟨hcfirst, hcrest⟩ := List.forall_mem_cons.mp hc
    obtain ⟨hsfirst, hsrest⟩ := forall_mem_executions_cons.mp hs
    obtain ⟨hn, hb⟩ := m.exchange_of_isForward hcfirst
    rw [after_cons, ih hcrest hsrest]
    exact (m.transition_perform c).memory_eq hn hb hsfirst

/-- Every instruction stays inside its footprint, and so does every run: a byte to whose address no
instruction has stored is what it was, be it part of the font, of the program or of its data. -/
theorem changes_in_footprint :
    (∀ (ins : Instruction) (s t : State) (keys : Keypad) (noise : UInt8),
      ins.execute s keys noise = .ok t → ins.Footprint s t) ∧
    ∀ (m : Machine) (commands : List Command), (∀ c ∈ commands, c.isForward = true) →
      ∀ address, (∀ x ∈ m.executions commands, x.storesTo address = false) →
        (m.after commands).state.memory.bytes[address]? = m.state.memory.bytes[address]? := by
  constructor
  · intro ins s t keys noise h
    exact Instruction.footprint_of_execute h
  · intro m commands hc address hs
    exact memory_after hc hs

/-- A program that stores right behind the font, and counts down a timer meanwhile, keeps the last
byte of the font. -/
theorem changes_in_footprint_of_font :
    let fresh := (powerUp.perform (.load [0xA0, 0x50, 0x60, 0x07, 0xF0, 0x18, 0xF0, 0x33])).2
    let commands : List Command := [.step 0, .step 0, .step 0, .tick, .step 0]
    (∃ x ∈ fresh.executions commands, x.storesTo 80 = true) ∧
      (fresh.after commands).state.memory.bytes[79]? = fresh.state.memory.bytes[79]? := by
  intro fresh commands
  have hstore : ∃ x ∈ fresh.executions commands, x.storesTo 80 = true := by
    decide +kernel +zetaReduce
  have hs : ∀ x ∈ fresh.executions commands, x.storesTo 79 = false := by
    decide +kernel +zetaReduce
  have hc : ∀ c ∈ commands, c.isForward = true := by decide +zetaReduce
  exact ⟨hstore, changes_in_footprint.2 fresh commands hc 79 hs⟩

end Machine

end ChipEight
