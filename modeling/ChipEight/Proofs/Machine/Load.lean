import Mathlib.Data.List.GetD
import ChipEight.Machine.Command
import ChipEight.Proofs.Frame.Coverage
import ChipEight.Proofs.Memory.ByteMap

/-!
# Loading a program

A load replaces the whole machine or nothing. What it puts in its place depends on the program alone
and is spelled out part by part; there is only one such machine. Nothing of a rejected program is
taken in.
-/

namespace ChipEight

/-- The byte at an address of memory into which a program has just been loaded. -/
def Memory.loadedByte (rom : List UInt8) (address : Nat) : UInt8 :=
  if address < 80 then Font.sheet.getD address 0
  else if 0x200 ≤ address ∧ address < 0x200 + rom.length then rom.getD (address - 0x200) 0
  else 0

namespace Machine

/-- A machine on which a program has just been loaded, and nothing else has ever happened. -/
structure JustLoaded (rom : List UInt8) (m : Machine) : Prop where
  memory : ∀ (address : Nat) (h : address < 4096),
    m.state.memory.bytes[address] = Memory.loadedByte rom address
  history : m.history = []
  keys : ∀ key, m.keys.isDown key = false
  fault : m.fault = none
  pc : m.state.pc = 0x200
  registers : ∀ x, m.state.reg x = 0
  index : m.state.i = 0
  delay : m.state.delay = 0
  sound : m.state.sound = 0
  depth : m.state.stack.depth = 0
  slots : ∀ (k : Nat) (h : k < 16), m.state.stack.slots[k] = 0
  frame : ∀ row col, m.state.frame.get row col = 0
  drawn : m.state.drawn = false

end Machine

private theorem Memory.getElem_overwrite_initial (rom : List UInt8) {address : Nat}
    (h : address < size) :
    (overwrite initial.bytes programStart rom)[address] = loadedByte rom address := by
  rw [getElem_overwrite, initial_holds address h, ByteMap.initial, loadedByte]
  by_cases hfont : address < 80
  · have hwindow : ¬(programStart ≤ address ∧ address < programStart + rom.length) :=
      fun hw ↦ absurd (Nat.lt_of_le_of_lt hw.1 hfont) (by decide)
    rw [if_pos hfont, dif_neg hwindow]
  · have hzero : Font.sheet.getD address 0 = 0 :=
      List.getD_eq_default _ _ (Nat.not_lt.mp hfont)
    rw [if_neg hfont, hzero]
    split
    · exact (List.getD_eq_getElem ..).symm
    · rfl

namespace Machine

/-- Loading a program that fits gives a machine on which it has just been loaded. -/
theorem exists_ofRom_justLoaded {rom : List UInt8} (h : rom.length ≤ Memory.romCapacity) :
    ∃ m, ofRom rom = .ok m ∧ m.JustLoaded rom := by
  refine ⟨_, ofRom_of_length_le h, ?_⟩
  exact
    { memory := fun address ha ↦ Memory.getElem_overwrite_initial rom ha
      history := rfl
      keys := Keypad.isDown_allUp
      fault := rfl
      pc := rfl
      registers := fun x ↦ Vector.getElem_replicate ..
      index := rfl
      delay := rfl
      sound := rfl
      depth := rfl
      slots := fun k hk ↦ Vector.getElem_replicate ..
      frame := Frame.get_blank
      drawn := rfl }

/-- There is only one machine on which a program has just been loaded. -/
theorem JustLoaded.eq {rom : List UInt8} {m n : Machine} (hm : m.JustLoaded rom)
    (hn : n.JustLoaded rom) : m = n := by
  have hregisters : m.state.v = n.state.v :=
    Vector.ext fun k hk ↦ (hm.registers ⟨k, hk⟩).trans (hn.registers ⟨k, hk⟩).symm
  have hslots : m.state.stack.slots = n.state.stack.slots :=
    Vector.ext fun k hk ↦ (hm.slots k hk).trans (hn.slots k hk).symm
  have hstack : m.state.stack = n.state.stack :=
    CallStack.ext hslots (hm.depth.trans hn.depth.symm)
  have hbytes : m.state.memory.bytes = n.state.memory.bytes :=
    Vector.ext fun k hk ↦ (hm.memory k hk).trans (hn.memory k hk).symm
  have hmemory : m.state.memory = n.state.memory := congrArg Memory.mk hbytes
  have hframe : m.state.frame = n.state.frame :=
    Frame.ext_get fun row col ↦ (hm.frame row col).trans (hn.frame row col).symm
  have hstate : m.state = n.state :=
    State.ext (hm.pc.trans hn.pc.symm) hregisters (hm.index.trans hn.index.symm)
      (hm.delay.trans hn.delay.symm) (hm.sound.trans hn.sound.symm) hstack hmemory hframe
      (hm.drawn.trans hn.drawn.symm)
  have hkeys : m.keys = n.keys := by
    rw [(Keypad.eq_allUp_iff _).mpr hm.keys, (Keypad.eq_allUp_iff _).mpr hn.keys]
  exact Machine.ext hstate (hm.history.trans hn.history.symm) hkeys (hm.fault.trans hn.fault.symm)

private theorem perform_load_of_length_lt (m : Machine) {rom : List UInt8}
    (h : Memory.romCapacity < rom.length) :
    m.perform (.load rom) = (.failed (.romTooLarge rom.length Memory.romCapacity), m) := by
  rw [perform, ofRom, if_pos h]
  rfl

/-- A load replaces everything or nothing. A program that fits is loaded whatever the machine was,
and then there is no difference to any other machine, or to a fresh one, into which it has been
loaded: every part of the machine is as described. A longer program is rejected with its length and
the greatest one; that leaves the machine as it was, and so no later operation shows it. -/
theorem load_replaces_all_or_nothing (m n : Machine) (rom : List UInt8) :
    let loaded := m.perform (.load rom)
    (rom.length ≤ 3584 →
      loaded.1 = .done ∧ n.perform (.load rom) = loaded ∧
        powerUp.perform (.load rom) = loaded ∧
        ∀ other : Machine, other.JustLoaded rom ↔ other = loaded.2) ∧
    (3584 < rom.length →
      loaded = (.failed (.romTooLarge rom.length 3584), m) ∧
        ∀ later, m.performAll (.load rom :: later) =
          (loaded.1 :: (m.performAll later).1, (m.performAll later).2)) := by
  intro loaded
  constructor
  · intro hfits
    obtain ⟨fresh, hrom, hfresh⟩ := exists_ofRom_justLoaded hfits
    have hload (before : Machine) : before.perform (.load rom) = (.done, fresh) := by
      rw [perform, hrom]
      rfl
    have hloaded : loaded = (.done, fresh) := hload m
    rw [hloaded]
    refine ⟨rfl, hload n, hload powerUp, ?_⟩
    intro other
    constructor
    · intro hother
      exact hother.eq hfresh
    · rintro rfl
      exact hfresh
  · intro hlong
    have hloaded : loaded = (.failed (.romTooLarge rom.length 3584), m) :=
      m.perform_load_of_length_lt hlong
    refine ⟨hloaded, ?_⟩
    intro later
    have hkept : (m.perform (.load rom)).2 = m := congrArg Prod.snd hloaded
    rw [performAll, hkept]

/-- A program that just fits reaches the last byte of memory, on a machine that was halted with a
key down as well; with one byte more, that machine is kept. -/
theorem load_replaces_all_or_nothing_of_halted :
    let m := powerUp.after [.load [0x60, 0x05, 0x00, 0xEE], .press 3, .step 0, .step 0]
    let rom := List.replicate 3584 0xAB
    let long := List.replicate 3585 0xAB
    m.fault = some .stackUnderflow ∧ m.keys.isDown 3 = true ∧ m.history.length = 1 ∧
      rom.length ≤ 3584 ∧ 3584 < long.length ∧
      (m.perform (.load rom)).1 = .done ∧
      (m.perform (.load rom)).2.state.memory.bytes[0xFFF] = 0xAB ∧
      m.perform (.load long) = (.failed (.romTooLarge 3585 3584), m) := by
  intro m rom long
  have hm : m.fault = some .stackUnderflow ∧ m.keys.isDown 3 = true ∧ m.history.length = 1 := by
    decide +kernel +zetaReduce
  obtain ⟨hfault, hkey, hhistory⟩ := hm
  have hrom : rom.length = 3584 := List.length_replicate
  have hlong : long.length = 3585 := List.length_replicate
  -- From here on, what the program leads to is not computed again.
  clear_value m
  obtain ⟨hdone, -, -, hfresh⟩ := (load_replaces_all_or_nothing m powerUp rom).1 (by omega)
  have hloaded := (hfresh _).mpr rfl
  have hrejected := ((load_replaces_all_or_nothing m powerUp long).2 (by omega)).1
  rw [hlong] at hrejected
  refine ⟨hfault, hkey, hhistory, by omega, by omega, hdone, ?_, hrejected⟩
  have hlast : Memory.loadedByte rom 0xFFF = 0xAB := by
    rw [Memory.loadedByte, if_neg (by decide), if_pos ⟨by decide, by omega⟩,
      List.getD_eq_getElem _ _ (by omega)]
    exact List.getElem_replicate ..
  exact (hloaded.memory 0xFFF (by decide)).trans hlast

end Machine

end ChipEight
