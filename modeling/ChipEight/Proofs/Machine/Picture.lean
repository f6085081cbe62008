import Mathlib.Data.List.DropRight
import ChipEight.Proofs.Instruction.Effect
import ChipEight.Proofs.Machine.Transition

/-!
# Taking the picture

A host that shows what it takes misses nothing. The picture can be taken exactly when something may
have changed it since the host last knew it: an instruction drew on it, or an earlier state came
back. When there is nothing to take, the picture is still the one that the host knows, be that the
one taken last or the dark one with which a machine begins.
-/

namespace ChipEight

/-! ### What instructions do to the picture -/

namespace Instruction

/-- Whether an instruction draws on the picture. -/
def draws : Instruction → Bool
  | .clear => true
  | .draw .. => true
  | _ => false

private theorem Effect.frame_cases {ins : Instruction} {s t : State} {keys : Keypad}
    (h : Effect s keys ins t) :
    ins.draws = true ∨ (t.drawn = s.drawn ∧ t.frame = s.frame) := by
  cases h with
  | clear => exact .inl rfl
  | draw x y height v hr => exact .inl rfl
  | _ => exact .inr ⟨rfl, rfl⟩

private theorem drawn_of_draws {ins : Instruction} {s t : State} {keys : Keypad} {noise : UInt8}
    (hd : ins.draws = true) (h : ins.execute s keys noise = .ok t) : t.drawn = true := by
  cases ins with
  | clear =>
    cases h
    rfl
  | draw x y height =>
    obtain ⟨sprite, -, h⟩ := Fault.ok_of_bind_eq_ok h
    cases h
    rfl
  | _ => cases hd

/-- The draw flag after an instruction tells whether it drew or the flag was set before. If it did
not draw, the picture is the same. -/
theorem drawn_of_execute {ins : Instruction} {s t : State} {keys : Keypad} {noise : UInt8}
    (h : ins.execute s keys noise = .ok t) :
    t.drawn = (s.drawn || ins.draws) ∧ (ins.draws = false → t.frame = s.frame) := by
  cases hd : ins.draws with
  | true =>
    rw [drawn_of_draws hd h, Bool.or_true]
    exact ⟨rfl, nofun⟩
  | false =>
    rcases (effect_of_execute h).frame_cases with hdraws | ⟨hdrawn, hframe⟩
    · rw [hd] at hdraws
      cases hdraws
    · rw [hdrawn, Bool.or_false]
      exact ⟨rfl, fun _ ↦ hframe⟩

end Instruction

/-! ### What the host knows -/

namespace Exchange

/-- The picture of which the host learns in an exchange: the one that it took, or the dark one of a
machine that begins anew. -/
def shown? (e : Exchange) : Option Frame :=
  if e.restarts then some .blank
  else
    match e.answer with
    | .frame taken => taken
    | _ => none

/-- Whether an exchange may have changed the picture: an instruction drew on it, or an earlier state
came back. -/
def redraws (e : Exchange) : Bool :=
  match e.answer with
  | .ran ins => ins.draws
  | .rewound restored => restored
  | _ => false

private theorem shown?_of_refuses {e : Exchange} (hn : e.restarts = false)
    (hr : e.answer.refuses = true) : e.shown? = none := by
  obtain ⟨c, answer⟩ := e
  rw [shown?, hn]
  cases answer with
  | frame taken => exact Option.isNone_iff_eq_none.mp hr
  | _ => rfl

private theorem redraws_of_refuses {e : Exchange} (h : e.answer.refuses = true) :
    e.redraws = false := by
  obtain ⟨c, answer⟩ := e
  cases answer with
  | ran ins => cases h
  | rewound restored => exact Bool.not_inj h
  | _ => rfl

end Exchange

/-- The picture of which the host learned last, dark at first. -/
def lastShown (events : List Exchange) : Frame :=
  (events.filterMap Exchange.shown?).getLastD .blank

/-- The exchanges since the host last learned of a picture. -/
def sinceShown (events : List Exchange) : List Exchange :=
  events.rtakeWhile fun e ↦ e.shown?.isNone

private theorem lastShown_concat (events : List Exchange) (e : Exchange) :
    lastShown (events ++ [e]) = e.shown?.getD (lastShown events) := by
  cases h : e.shown? <;> simp [lastShown, h]

private theorem sinceShown_concat (events : List Exchange) (e : Exchange) :
    sinceShown (events ++ [e]) = if e.shown?.isNone then sinceShown events ++ [e] else [] :=
  List.rtakeWhile_concat ..

/-- The draw flag tells whether the picture may have changed since the host last learned of it, and
unless it is set the picture is the one that the host knows. -/
structure Machine.InStep (m : Machine) (events : List Exchange) : Prop where
  drawn_iff : m.state.drawn = true ↔ ∃ e ∈ sinceShown events, e.redraws = true
  frame_eq : m.state.drawn = false → m.state.frame = lastShown events

namespace Machine

private theorem Transition.of_shown {m next : Machine} {e : Exchange} {picture : Frame}
    (h : m.Transition e next) (hs : e.shown? = some picture) :
    next.state.drawn = false ∧ next.state.frame = picture := by
  cases h with
  | restart memory hr =>
    rw [Exchange.shown?, if_pos hr] at hs
    cases hs
    exact ⟨rfl, rfl⟩
  | take hd =>
    cases hs
    exact ⟨rfl, rfl⟩
  | refuse hn hr =>
    rw [Exchange.shown?_of_refuses hn hr] at hs
    cases hs
  | _ => cases hs

private theorem Transition.of_not_shown {m next : Machine} {e : Exchange} (h : m.Transition e next)
    (hs : e.shown? = none) :
    next.state.drawn = (m.state.drawn || e.redraws) ∧
      (e.redraws = false → next.state.frame = m.state.frame) := by
  cases h with
  | restart memory hr =>
    rw [Exchange.shown?, if_pos hr] at hs
    cases hs
  | run hf hc he =>
    rw [state_advanceTo]
    exact Instruction.drawn_of_execute he
  | take hd => cases hs
  | restore hh => exact ⟨(Bool.or_true _).symm, nofun⟩
  | refuse hn hr =>
    rw [Exchange.redraws_of_refuses hr, Bool.or_false]
    exact ⟨rfl, fun _ ↦ rfl⟩
  | _ => exact ⟨(Bool.or_false _).symm, fun _ ↦ rfl⟩

/-- Every transition keeps the machine in step with what the host knows. -/
theorem InStep.transition {m next : Machine} {events : List Exchange} {e : Exchange}
    (h : m.InStep events) (ht : m.Transition e next) : next.InStep (events ++ [e]) := by
  cases hs : e.shown? with
  | some picture =>
    obtain ⟨hdrawn, hframe⟩ := ht.of_shown hs
    have hsince : sinceShown (events ++ [e]) = [] := by
      rw [sinceShown_concat, hs]
      rfl
    have hlast : lastShown (events ++ [e]) = picture := by
      rw [lastShown_concat, hs]
      rfl
    refine ⟨?_, fun _ ↦ hframe.trans hlast.symm⟩
    rw [hdrawn, hsince]
    exact ⟨nofun, fun ⟨_, he, _⟩ ↦ absurd he List.not_mem_nil⟩
  | none =>
    obtain ⟨hdrawn, hframe⟩ := ht.of_not_shown hs
    have hsince : sinceShown (events ++ [e]) = sinceShown events ++ [e] := by
      rw [sinceShown_concat, hs]
      rfl
    have hlast : lastShown (events ++ [e]) = lastShown events := by
      rw [lastShown_concat, hs]
      rfl
    constructor
    · rw [hdrawn, hsince, Bool.or_eq_true, h.drawn_iff]
      simp [or_and_right, exists_or]
    · intro hnot
      rw [hdrawn, Bool.or_eq_false_iff] at hnot
      rw [hframe hnot.2, hlast, h.frame_eq hnot.1]

/-- A machine stays in step with what the host knows, whatever is done to it after power-up. -/
theorem inStep_after (commands : List Command) :
    (powerUp.after commands).InStep (powerUp.transcript commands) := by
  induction commands using List.reverseRecOn with
  | nil => exact ⟨⟨nofun, fun ⟨_, he, _⟩ ↦ absurd he List.not_mem_nil⟩, fun _ ↦ rfl⟩
  | append_singleton commands c ih =>
    rw [after_concat, transcript_concat]
    exact ih.transition (transition_perform _ c)

/-- Taking the picture loses no update of it. Whatever was done to a machine after power-up, when
there is no picture to take, the host knows the present one; and there is one to take exactly when
the host's last picture was followed by an instruction that drew or by an earlier state coming back,
and it is the present one. -/
theorem takeFrame_after (commands : List Command) :
    let m := powerUp.after commands
    let events := powerUp.transcript commands
    (m.takeFrame.1 = none → m.state.frame = lastShown events) ∧
      ∀ picture, m.takeFrame.1 = some picture ↔
        (∃ e ∈ sinceShown events, e.redraws = true) ∧ m.state.frame = picture := by
  intro m events
  have h : m.InStep events := inStep_after commands
  refine ⟨fun hn ↦ h.frame_eq (m.takeFrame_eq_none_iff.mp hn), fun picture ↦ ?_⟩
  rw [m.takeFrame_eq_some_iff, h.drawn_iff]

end Machine

end ChipEight
