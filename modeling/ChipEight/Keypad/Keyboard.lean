import ChipEight.Keypad
import ChipEight.Text.Quoted

/-!
# The keypad on a keyboard

The four columns at the left of a keyboard, rows `1234`, `QWER`, `ASDF` and `ZXCV`, stand for the
keypad, whose rows are `123C`, `456D`, `789E` and `A0BF`. Letters count in either case; no other
character is mapped.
-/

namespace ChipEight.Keyboard

/-- The key that a character stands for. -/
def key? (c : Char) : Option Key :=
  match c.toUpper with
  | 'X' => some 0x0
  | '1' => some 0x1
  | '2' => some 0x2
  | '3' => some 0x3
  | 'Q' => some 0x4
  | 'W' => some 0x5
  | 'E' => some 0x6
  | 'A' => some 0x7
  | 'S' => some 0x8
  | 'D' => some 0x9
  | 'Z' => some 0xA
  | 'C' => some 0xB
  | '4' => some 0xC
  | 'R' => some 0xD
  | 'F' => some 0xE
  | 'V' => some 0xF
  | _ => none

/-- The complaint about a character that stands for no key. -/
structure Unmapped where
  char : Char
  deriving DecidableEq

/-- The sentence that reports an unmapped character. -/
def Unmapped.message (u : Unmapped) : String :=
  Quoted.quote u.char ++ " isn't mapped to a keypad key"

/-- The keys that characters stand for, in order, unless one of them stands for none. -/
def keysOf : List Char → Except Unmapped (List Key)
  | [] => .ok []
  | c :: rest =>
    match key? c with
    | none => .error ⟨c⟩
    | some key => (keysOf rest).map (key :: ·)

/-- The keys held down by a text. -/
def heldKeys (text : String) : Except Unmapped (List Key) := keysOf text.toList

/-- The first character of a text that stands for no key, if there is one. -/
def firstUnmapped? (text : String) : Option Char := text.toList.find? fun c ↦ (key? c).isNone

/-- Characters that differ in case at most stand for the same key, or for none. -/
theorem key?_congr {c d : Char} (h : c.toUpper = d.toUpper) : key? c = key? d := by
  rw [key?, key?, h]

private theorem keysOf_eq_ok_iff (cs : List Char) (keys : List Key) :
    keysOf cs = .ok keys ↔ cs.map key? = keys.map some := by
  induction cs generalizing keys with
  | nil => cases keys <;> simp [keysOf]
  | cons c rest ih =>
    rw [keysOf, List.map_cons]
    cases key? c with
    | none => cases keys <;> simp
    | some key =>
      cases hrest : keysOf rest with
      | error unmapped =>
        cases keys with
        | nil => simp [Except.map]
        | cons first others =>
          have hn : rest.map key? ≠ others.map some := by
            rw [ne_eq, ← ih, hrest]
            exact nofun
          simp [Except.map, hn]
      | ok found =>
        have hfound : rest.map key? = found.map some := (ih found).mp hrest
        cases keys with
        | nil => simp [Except.map]
        | cons first others => simp [Except.map, hfound, List.map_inj_right]

private theorem keysOf_eq_error_iff (cs : List Char) (u : Unmapped) :
    keysOf cs = .error u ↔ (cs.find? fun c ↦ (key? c).isNone) = some u.char := by
  induction cs with
  | nil => exact ⟨nofun, nofun⟩
  | cons c rest ih =>
    rw [keysOf, List.find?_cons]
    cases key? c with
    | none =>
      change Except.error (Unmapped.mk c) = .error u ↔ some c = some u.char
      rw [Except.error.injEq, Option.some.injEq]
      exact ⟨congrArg Unmapped.char, congrArg Unmapped.mk⟩
    | some key =>
      change (keysOf rest).map (key :: ·) = _ ↔ (rest.find? fun c ↦ (key? c).isNone) = some u.char
      rw [← ih]
      cases keysOf rest with
      | error unmapped => exact Iff.rfl
      | ok keys => exact ⟨nofun, nofun⟩

/-- A text holds keys down in the order of its characters. -/
theorem heldKeys_eq_ok_iff (text : String) (keys : List Key) :
    heldKeys text = .ok keys ↔ text.toList.map key? = keys.map some :=
  keysOf_eq_ok_iff ..

/-- A text is refused for its first character that stands for no key. -/
theorem heldKeys_eq_error_iff (text : String) (c : Char) :
    heldKeys text = .error ⟨c⟩ ↔ firstUnmapped? text = some c :=
  keysOf_eq_error_iff ..

/-- A text holds keys down if there is no character to refuse it for. -/
theorem exists_heldKeys_iff (text : String) :
    (∃ keys, heldKeys text = .ok keys) ↔ firstUnmapped? text = none := by
  cases hk : heldKeys text with
  | ok keys =>
    refine ⟨fun _ ↦ ?_, fun _ ↦ ⟨keys, rfl⟩⟩
    cases hu : firstUnmapped? text with
    | none => rfl
    | some c =>
      rw [(heldKeys_eq_error_iff text c).mpr hu] at hk
      cases hk
  | error u =>
    rw [(heldKeys_eq_error_iff text u.char).mp hk]
    exact ⟨nofun, nofun⟩

/-- There is no character to refuse a text for if each of them stands for a key. -/
theorem firstUnmapped?_eq_none_iff (text : String) :
    firstUnmapped? text = none ↔ ∀ c ∈ text.toList, ∃ key, key? c = some key := by
  simp only [firstUnmapped?, List.find?_eq_none, Option.isNone_iff_eq_none, ← ne_eq,
    Option.ne_none_iff_exists']

end ChipEight.Keyboard
