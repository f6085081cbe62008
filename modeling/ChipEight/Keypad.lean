import ChipEight.Fault

/-!
# The keypad

Sixteen keys, named by the hexadecimal digits, each up or down. The host presses and releases them;
programs only look.
-/

namespace ChipEight

/-- A key of the keypad. -/
abbrev Key := Fin 16

/-- The key with a code, if the code is on the keypad. -/
def Key.ofCode? (code : UInt8) : Option Key :=
  if h : code.toNat < 16 then some ⟨code.toNat, h⟩ else none

/-- The key with a code, or the fault that no key has it. -/
def Key.ofCode (code : UInt8) : Except Fault Key :=
  match Key.ofCode? code with
  | some key => .ok key
  | none => .error (.invalidKey code)

/-- The code of a key. -/
def Key.code (key : Key) : UInt8 := UInt8.ofNat key.val

/-- The code of a key is its number. -/
theorem Key.toNat_code (key : Key) : key.code.toNat = key.val :=
  UInt8.toNat_ofNat_of_lt' (Nat.lt_trans key.isLt (by decide))

/-- The key with a code is the one whose code it is. -/
theorem Key.ofCode?_eq_some_iff (code : UInt8) (key : Key) :
    Key.ofCode? code = some key ↔ key.code = code := by
  rw [Key.ofCode?, Option.dite_none_right_eq_some, ← UInt8.toNat_inj, key.toNat_code]
  constructor
  · rintro ⟨hc, hk⟩
    exact (congrArg Fin.val (Option.some.inj hk)).symm
  · intro h
    exact ⟨h ▸ key.isLt, congrArg some (Fin.ext h.symm)⟩

/-- The code of a key is on the keypad. -/
theorem Key.ofCode_code (key : Key) : Key.ofCode key.code = .ok key := by
  rw [Key.ofCode, (Key.ofCode?_eq_some_iff key.code key).mpr rfl]

/-- The number of keys. -/
abbrev Keypad.size : Nat := 16

/-- Which keys are down. -/
structure Keypad where
  down : Vector Bool Keypad.size
  deriving DecidableEq

namespace Keypad

/-- The keypad with every key up. -/
def allUp : Keypad := ⟨.replicate 16 false⟩

/-- The keypad with one more key down. -/
def press (k : Keypad) (key : Key) : Keypad := ⟨k.down.set key.val true⟩

/-- The keypad with one key up. -/
def release (k : Keypad) (key : Key) : Keypad := ⟨k.down.set key.val false⟩

/-- Whether a key is down. -/
def isDown (k : Keypad) (key : Key) : Bool := k.down[key]

/-- The key with the lowest code among those that are down. -/
def lowest? (k : Keypad) : Option Key := (List.finRange 16).find? k.isDown

/-- No key is down after all are up. -/
theorem isDown_allUp (key : Key) : allUp.isDown key = false := by
  simp [isDown, allUp]

/-- A keypad is known by the keys that are down. -/
theorem ext_isDown {k l : Keypad} (h : ∀ key, k.isDown key = l.isDown key) : k = l := by
  obtain ⟨down⟩ := k
  obtain ⟨other⟩ := l
  exact congrArg Keypad.mk (Vector.ext fun i hi ↦ h ⟨i, hi⟩)

/-- Only one keypad has every key up. -/
theorem eq_allUp_iff (k : Keypad) : k = allUp ↔ ∀ key, k.isDown key = false := by
  constructor
  · rintro rfl
    exact isDown_allUp
  · intro h
    exact ext_isDown fun key ↦ (h key).trans (isDown_allUp key).symm

/-- Pressing a key puts that key down and moves no other. -/
theorem isDown_press (k : Keypad) (key other : Key) :
    (k.press key).isDown other = (decide (key = other) || k.isDown other) := by
  by_cases h : key = other
  · subst h; simp [isDown, press]
  · have hv : key.val ≠ other.val := fun he ↦ h (Fin.ext he)
    simp [isDown, press, h, hv]

/-- Pressing keys one after the other puts them down and moves no other. -/
theorem isDown_foldl_press (keys : List Key) (k : Keypad) (other : Key) :
    (keys.foldl press k).isDown other = true ↔ other ∈ keys ∨ k.isDown other = true := by
  induction keys generalizing k with
  | nil => simp
  | cons key rest ih =>
    rw [List.foldl_cons, ih, isDown_press, Bool.or_eq_true, decide_eq_true_iff, List.mem_cons,
      ← or_assoc, or_comm (b := key = other), eq_comm (a := key)]

/-- There is a lowest key down unless every key is up. -/
theorem lowest?_eq_none_iff (k : Keypad) : k.lowest? = none ↔ ∀ key, k.isDown key = false := by
  simp [lowest?, List.find?_eq_none]

/-- The lowest key down is the one that is down while every lower one is up. -/
theorem lowest?_eq_some_iff (k : Keypad) (key : Key) :
    k.lowest? = some key ↔ k.isDown key = true ∧ ∀ lower < key, k.isDown lower = false := by
  rw [lowest?, List.find?_eq_some_iff_getElem]
  refine and_congr_right fun _ ↦ ⟨?_, ?_⟩
  · rintro ⟨i, hi, rfl, hu⟩ lower hlt
    have := hu lower.val (by simpa [Fin.lt_def] using hlt)
    simpa using this
  · intro hu
    refine ⟨key.val, by simp, by simp, fun j hj ↦ ?_⟩
    have := hu ⟨j, by omega⟩ hj
    simpa using this

end Keypad

end ChipEight
