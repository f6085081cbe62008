import ChipEight.Proofs.Machine.Transition
import ChipEight.Shell.Outcome

/-!
# Keys held by a text

A text whose characters all stand for keys holds down exactly these, so neither order nor repetition
nor case matter; of any other text the first character that stands for no key is told, before there
is a machine whose keys could be pressed. Keys belong to the host: whatever a program does, and when
an earlier state is brought back, they stay as they are.
-/

namespace ChipEight

namespace Machine

private theorem keys_advanceTo (m : Machine) (next : State) : (m.advanceTo next).keys = m.keys := by
  unfold advanceTo
  split <;> rfl

private theorem keepsKeys_of_restarts {e : Exchange} (h : e.restarts = true) :
    e.command.keepsKeys = false := by
  unfold Exchange.restarts at h
  split at h
  · next hc => rw [hc]; rfl
  · next hc ha => rw [hc]; rfl
  · cases h

/-- Only the host moves keys. -/
theorem Transition.keys_eq {m next : Machine} {e : Exchange} (ht : m.Transition e next)
    (h : e.command.keepsKeys = true) : next.keys = m.keys := by
  cases ht with
  | restart memory hr =>
    rw [keepsKeys_of_restarts hr] at h
    cases h
  | run hf hc he => exact m.keys_advanceTo _
  | press keys => cases h
  | release keys => cases h
  | _ => rfl

/-- The keys stay as they are through operations that do not move them. -/
theorem keys_after {m : Machine} {commands : List Command}
    (h : ∀ c ∈ commands, c.keepsKeys = true) : (m.after commands).keys = m.keys :=
  after_preserves (P := fun reached ↦ reached.keys = m.keys) rfl fun c hc reached hkept ↦
    ((reached.transition_perform c).keys_eq (h c hc)).trans hkept

/-- Pressing keys by their codes presses them on the keypad. -/
theorem after_presses (m : Machine) (keys : List Key) :
    m.after (Command.presses keys) = { m with keys := keys.foldl Keypad.press m.keys } := by
  rw [after, performAll_presses, foldl_pressKey_eq]

private theorem keys_ofRom {rom : List UInt8} {m : Machine} (h : ofRom rom = .ok m) :
    m.keys = .allUp := by
  obtain ⟨memory, rfl⟩ := eq_powerUp_of_ofRom h
  rfl

/-- The keys that are down on a freshly loaded machine are those that were pressed. -/
theorem isDown_after_presses {rom : List UInt8} {m : Machine} (h : ofRom rom = .ok m)
    (keys : List Key) (key : Key) :
    (m.after (Command.presses keys)).keys.isDown key = true ↔ key ∈ keys := by
  rw [after_presses, Keypad.isDown_foldl_press, keys_ofRom h, Keypad.isDown_allUp]
  exact or_iff_left nofun

/-- A code counts as pressed if it is that of a key that is down. -/
theorem isPressed_iff (m : Machine) (code : UInt8) :
    m.isPressed code = true ↔ ∃ key, m.keys.isDown key = true ∧ key.code = code := by
  simp only [isPressed, Option.any_eq_true, Key.ofCode?_eq_some_iff, and_comm]

end Machine

namespace Keyboard

private theorem mem_iff_of_heldKeys {text : String} {keys : List Key} (h : heldKeys text = .ok keys)
    (key : Key) : key ∈ keys ↔ ∃ c ∈ text.toList, key? c = some key := by
  rw [← List.mem_map, (heldKeys_eq_ok_iff text keys).mp h, List.mem_map]
  simp

private theorem mem_of_heldKeys {text other : String} {keys others : List Key}
    (h : heldKeys text = .ok keys) (ho : heldKeys other = .ok others)
    (hsame : ∀ c ∈ text.toList.map Char.toUpper, c ∈ other.toList.map Char.toUpper) {key : Key}
    (hkey : key ∈ keys) : key ∈ others := by
  obtain ⟨c, hc, hk⟩ := (mem_iff_of_heldKeys h key).mp hkey
  obtain ⟨d, hd, hcase⟩ := List.mem_map.mp (hsame _ (List.mem_map_of_mem hc))
  exact (mem_iff_of_heldKeys ho key).mpr ⟨d, hd, (key?_congr hcase).trans hk⟩

/-- The keys held by a text are those of its characters. A text holds keys if every character stands
for one, and then gives their codes in order; otherwise it is refused for the first character that
stands for none, and the run ends without a machine. On a freshly loaded machine, pressing the keys
of a text puts down the keys of its characters and no other, so that texts which differ only in the
order, number and case of their characters lead to the same machine. Neither steps, which may fail,
nor ticks, nor going back, nor taking the picture move a key after that. -/
theorem held_keys_are_mapped_characters (text : String) :
    ((∃ keys, heldKeys text = .ok keys) ↔ ∀ c ∈ text.toList, ∃ key, key? c = some key) ∧
    (∀ c, (heldKeys text = .error ⟨c⟩ ↔ firstUnmapped? text = some c) ∧
      (firstUnmapped? text = some c → ∀ (settings : Shell.RunSettings) (rom : List UInt8),
        settings.hold = text → settings.prepare rom = .error (Unmapped.message ⟨c⟩))) ∧
    ∀ keys, heldKeys text = .ok keys →
      text.toList.map key? = keys.map some ∧ (∀ key ∈ keys, key.code.toNat < 16) ∧
      ∀ rom fresh, Machine.ofRom rom = .ok fresh →
        let held := fresh.after (Command.presses keys)
        (fresh.performAll (Command.presses keys)).1 = .replicate keys.length .done ∧
        (∀ code, held.isPressed code = true ↔
          ∃ c ∈ text.toList, (key? c).map Key.code = some code) ∧
        (∀ other others, heldKeys other = .ok others →
          (∀ c, c ∈ other.toList.map Char.toUpper ↔ c ∈ text.toList.map Char.toUpper) →
          fresh.after (Command.presses others) = held) ∧
        ∀ commands, (∀ c ∈ commands, Command.keepsKeys c = true) → ∀ code,
          (held.after commands).isPressed code = held.isPressed code := by
  refine ⟨?_, ?_, ?_⟩
  · rw [exists_heldKeys_iff, firstUnmapped?_eq_none_iff]
  · intro c
    refine ⟨heldKeys_eq_error_iff text c, ?_⟩
    rintro hc settings rom rfl
    exact settings.prepare_of_firstUnmapped? rom hc
  · intro keys hkeys
    refine ⟨(heldKeys_eq_ok_iff text keys).mp hkeys, ?_, ?_⟩
    · intro key _
      rw [key.toNat_code]
      exact key.isLt
    · intro rom fresh hfresh held
      refine ⟨by rw [Machine.performAll_presses], ?_, ?_, ?_⟩
      · intro code
        simp only [Machine.isPressed_iff, held, Machine.isDown_after_presses hfresh,
          mem_iff_of_heldKeys hkeys, Option.map_eq_some_iff]
        constructor
        · rintro ⟨key, ⟨c, hc, hk⟩, hcode⟩
          exact ⟨c, hc, key, hk, hcode⟩
        · rintro ⟨c, hc, key, hk, hcode⟩
          exact ⟨key, ⟨c, hc, hk⟩, hcode⟩
      · intro other others hothers hsame
        have hmem (key : Key) : key ∈ others ↔ key ∈ keys :=
          ⟨mem_of_heldKeys hothers hkeys fun c ↦ (hsame c).mp,
            mem_of_heldKeys hkeys hothers fun c ↦ (hsame c).mpr⟩
        have hpad : others.foldl Keypad.press fresh.keys = keys.foldl Keypad.press fresh.keys := by
          apply Keypad.ext_isDown
          intro key
          rw [Bool.eq_iff_iff, Keypad.isDown_foldl_press, Keypad.isDown_foldl_press, hmem]
        rw [fresh.after_presses, hpad, ← fresh.after_presses]
      · intro commands hcommands code
        rw [Machine.isPressed, Machine.isPressed, Machine.keys_after hcommands]

/-- A text in another order, with a repetition and in the other case holds the same keys, through a
fault and back. A text with an unmapped character holds none. -/
theorem held_keys_are_mapped_characters_of_repetition :
    let rom : List UInt8 := [0x60, 0x05, 0x00, 0xEE]
    let fresh := Machine.powerUp.after [.load rom]
    let held := fresh.after (Command.presses [4, 1])
    let ran : List Command := [.step 0, .tick, .step 0, .rewind, .takeFrame]
    let mistaken : Shell.RunSettings := { rom := "game", hold := "1p5" }
    Machine.ofRom rom = .ok fresh ∧ heldKeys "q1" = .ok [4, 1] ∧ heldKeys "1Q1" = .ok [1, 4, 1] ∧
      fresh.after (Command.presses [1, 4, 1]) = held ∧ held.isPressed 4 = true ∧
      (held.after ran).isPressed 4 = true ∧
      mistaken.prepare rom = .error (Unmapped.message ⟨'p'⟩) := by
  intro rom fresh held ran mistaken
  have hfresh : Machine.ofRom rom = .ok fresh := rfl
  have hkeys : heldKeys "q1" = .ok [4, 1] := (heldKeys_eq_ok_iff _ _).mpr (by decide +kernel)
  have hothers : heldKeys "1Q1" = .ok [1, 4, 1] :=
    (heldKeys_eq_ok_iff _ _).mpr (by decide +kernel)
  have hunmapped : firstUnmapped? mistaken.hold = some 'p' := by decide +kernel +zetaReduce
  obtain ⟨-, hrefused, -⟩ := held_keys_are_mapped_characters "1p5"
  obtain ⟨-, -, hheld⟩ := held_keys_are_mapped_characters "q1"
  obtain ⟨-, -, hpressed⟩ := hheld _ hkeys
  obtain ⟨-, hcodes, hsame, hstay⟩ := hpressed rom fresh hfresh
  have hfour : held.isPressed 4 = true := (hcodes 4).mpr ⟨'q', by decide +kernel⟩
  refine ⟨hfresh, hkeys, hothers, hsame "1Q1" _ hothers ?_, hfour, ?_,
    (hrefused 'p').2 hunmapped mistaken rom rfl⟩
  · intro c
    have hupper : "1Q1".toList.map Char.toUpper = ['1', 'Q', '1'] := by decide +kernel
    have hlower : "q1".toList.map Char.toUpper = ['Q', '1'] := by decide +kernel
    rw [hupper, hlower]
    simp only [List.mem_cons, List.not_mem_nil, or_false]
    rw [or_comm, or_assoc, or_self]
  · rw [hstay ran (by decide) 4, hfour]

end Keyboard

end ChipEight
