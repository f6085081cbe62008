import ChipEight.Proofs.Machine.Veil

/-!
# The draw flag is inert

Whether the picture has been drawn on since it was last taken matters to the next taking of it and
to nothing else. Instructions never read that flag, and it does not decide what the history records,
since an instruction that changes nothing else stalls and so leaves the flag as it is. Hence a host
may take pictures whenever it likes: all other operations answer as they would have, and the machine
ends up the same but for the flags of its states.
-/

namespace ChipEight

/-- The state as if its picture had just been taken. -/
def State.asSeen (s : State) : State := { s with drawn := false }

/-- The machine as if the pictures of its present and of all its earlier states had been taken. -/
def Machine.asSeen (m : Machine) : Machine :=
  { m with state := m.state.asSeen, history := m.history.map State.asSeen }

namespace Machine

private theorem perform_of_asSeen_eq {m n : Machine} (h : m.asSeen = n.asSeen) {c : Command}
    (hc : c ≠ .takeFrame) :
    m.exchange c = n.exchange c ∧ (m.perform c).2.asSeen = (n.perform c).2.asSeen := by
  have hr : (m.exchange c).ran?.any (Veil.mask false true).reads = false := by
    cases (m.exchange c).ran? <;> rfl
  have hv : m.through (.mask false true) = n.through (.mask false true) := h
  exact perform_congr hv hr fun ht ↦ absurd ht hc

/-- Leaving out every taking of the picture changes no other exchange, and nothing but the draw
flags of the machine. -/
theorem transcript_without_takeFrame (m : Machine) (commands : List Command) :
    (m.transcript commands).filter (·.command != .takeFrame) =
        m.transcript (commands.filter (· != .takeFrame)) ∧
      (m.after commands).asSeen = (m.after (commands.filter (· != .takeFrame))).asSeen := by
  apply transcript_filter asSeen (· == .takeFrame) fun _ ↦ True
  · intro m c hc
    rw [eq_of_beq hc, perform_takeFrame]
    rfl
  · intro m n c hc _ h
    exact perform_of_asSeen_eq h (ne_of_beq_false hc)
  · rfl
  · exact fun _ _ ↦ trivial

/-- The draw flag is inert. Two sequences of operations that differ only in where the picture is
taken have the same other exchanges, and lead from power-up to the same machine but for the draw
flags of its states. -/
theorem takeFrame_inert {a b : List Command}
    (h : a.filter (· != .takeFrame) = b.filter (· != .takeFrame)) :
    (powerUp.transcript a).filter (·.command != .takeFrame) =
        (powerUp.transcript b).filter (·.command != .takeFrame) ∧
      (powerUp.after a).asSeen = (powerUp.after b).asSeen := by
  obtain ⟨hta, hma⟩ := powerUp.transcript_without_takeFrame a
  obtain ⟨htb, hmb⟩ := powerUp.transcript_without_takeFrame b
  rw [hta, htb, hma, hmb, h]
  exact ⟨rfl, rfl⟩

/-- A program that draws, jumps to itself and is taken back does so alike whether the picture is
taken in between or only before. -/
theorem takeFrame_inert_of_drawing :
    let a : List Command :=
      [.load [0x00, 0xE0, 0x12, 0x02], .step 0, .takeFrame, .step 0, .takeFrame, .rewind, .step 0]
    let b : List Command :=
      [.load [0x00, 0xE0, 0x12, 0x02], .takeFrame, .step 0, .step 0, .rewind, .step 0]
    a.filter (· != .takeFrame) = b.filter (· != .takeFrame) ∧
      (powerUp.transcript a).filter (·.command != .takeFrame) =
        (powerUp.transcript b).filter (·.command != .takeFrame) ∧
      (powerUp.after a).asSeen = (powerUp.after b).asSeen := by
  intro a b
  have h : a.filter (· != .takeFrame) = b.filter (· != .takeFrame) := by decide
  exact ⟨h, takeFrame_inert h⟩

end Machine

end ChipEight
