import ChipEight.Instruction.Decode
import ChipEight.Instruction.Execute

/-!
# Arithmetic

What the words of arithmetic compute, told by numbers: a value for the first register and, for five
of them, a flag for the flag register. Both come from the old values of the two registers, whichever
registers these are, and the flag is stored last, so that it is what a flag register named as the
first one holds in the end.
-/

namespace ChipEight

/-- What a combination computes from the values of its first and its second register: the new value
of the first one and, in some cases, a flag. -/
def Combination.result (a b : Nat) : Combination → Nat × Option Nat
  | .copy => (b, none)
  | .or => (a ||| b, none)
  | .and => (a &&& b, none)
  | .xor => (a ^^^ b, none)
  | .add => ((a + b) % 256, some (if 256 ≤ a + b then 1 else 0))
  | .sub => ((256 + a - b) % 256, some (if b ≤ a then 1 else 0))
  | .subFrom => ((256 + b - a) % 256, some (if a ≤ b then 1 else 0))

/-- What a shift computes from the value of its register: the new value and the bit shifted out. -/
def Shift.result (a : Nat) : Shift → Nat × Option Nat
  | .right => (a / 2, some (a % 2))
  | .left => (2 * a % 256, some (a / 128))

/-- What a word of arithmetic computes from the values of its first and its second register. -/
def Word.result? (w : Word) (a b : Nat) : Option (Nat × Option Nat) :=
  match w.family.val, w.n.val with
  | 0x7, _ => some ((a + w.low.toNat) % 256, none)
  | 0x8, 0x0 => some (Combination.copy.result a b)
  | 0x8, 0x1 => some (Combination.or.result a b)
  | 0x8, 0x2 => some (Combination.and.result a b)
  | 0x8, 0x3 => some (Combination.xor.result a b)
  | 0x8, 0x4 => some (Combination.add.result a b)
  | 0x8, 0x5 => some (Combination.sub.result a b)
  | 0x8, 0x6 => some (Shift.right.result a)
  | 0x8, 0x7 => some (Combination.subFrom.result a b)
  | 0x8, 0xE => some (Shift.left.result a)
  | _, _ => none

/-- The second state is the first past one word, with a value in a register and then with a flag, if
there is one, in the flag register. -/
structure State.Receives (s : State) (x : Register) (value : Nat) (flag : Option Nat) (t : State) :
    Prop where
  flag_eq : ∀ bit, flag = some bit → (t.reg .flag).toNat = bit
  value_eq : (x = .flag → flag = none) → (t.reg x).toNat = value
  kept : ∀ r, r ≠ x → (r = .flag → flag = none) → t.reg r = s.reg r
  pc_eq : t.pc.toNat = s.pc.toNat + 2
  rest_eq : t = { s with pc := t.pc, v := t.v }

/-! ### Bytes as numbers -/

private theorem toNat_byte_sub (a b : UInt8) : (a - b).toNat = (256 + a.toNat - b.toNat) % 256 := by
  have := b.toNat_lt
  rw [UInt8.toNat_sub]
  omega

private theorem toNat_byte_shiftRight_one (a : UInt8) : (a >>> 1).toNat = a.toNat / 2 := by
  rw [UInt8.toNat_shiftRight]
  exact Nat.shiftRight_eq_div_pow ..

private theorem toNat_byte_and_one (a : UInt8) : (a &&& 1).toNat = a.toNat % 2 := by
  rw [UInt8.toNat_and]
  exact Nat.and_one_is_mod _

private theorem toNat_byte_shiftLeft_one (a : UInt8) : (a <<< 1).toNat = 2 * a.toNat % 256 := by
  rw [UInt8.toNat_shiftLeft, Nat.mul_comm]
  exact congrArg (· % 256) (Nat.shiftLeft_eq ..)

private theorem toNat_byte_shiftRight_seven (a : UInt8) : (a >>> 7).toNat = a.toNat / 128 := by
  rw [UInt8.toNat_shiftRight]
  exact Nat.shiftRight_eq_div_pow ..

private theorem toNat_toUInt8_decide (p : Prop) [Decidable p] :
    (decide p).toUInt8.toNat = if p then 1 else 0 := by
  by_cases h : p
  · rw [decide_eq_true h, if_pos h]
    rfl
  · rw [decide_eq_false h, if_neg h]
    rfl

private theorem byte_add_lt_iff (a b : UInt8) : a + b < a ↔ 256 ≤ a.toNat + b.toNat := by
  have := a.toNat_lt
  have := b.toNat_lt
  rw [UInt8.lt_iff_toNat_lt, UInt8.toNat_add]
  omega

/-- A combination of bytes computes what it should. -/
theorem Combination.toNat_apply (how : Combination) (a b : UInt8) :
    ((how.apply a b).1.toNat, (how.apply a b).2.map UInt8.toNat) =
      how.result a.toNat b.toNat := by
  cases how with
  | copy => rfl
  | or => exact congrArg (·, none) (UInt8.toNat_or a b)
  | and => exact congrArg (·, none) (UInt8.toNat_and a b)
  | xor => exact congrArg (·, none) (UInt8.toNat_xor a b)
  | add =>
    simp only [apply, result, Option.map_some, toNat_toUInt8_decide, byte_add_lt_iff]
    rw [UInt8.toNat_add]
  | sub =>
    simp only [apply, result, Option.map_some, toNat_toUInt8_decide, UInt8.le_iff_toNat_le]
    rw [toNat_byte_sub]
  | subFrom =>
    simp only [apply, result, Option.map_some, toNat_toUInt8_decide, UInt8.le_iff_toNat_le]
    rw [toNat_byte_sub]

/-- A shift of a byte computes what it should. -/
theorem Shift.toNat_apply (direction : Shift) (a : UInt8) :
    ((direction.apply a).1.toNat, some (direction.apply a).2.toNat) =
      direction.result a.toNat := by
  cases direction with
  | right => rw [apply, result, toNat_byte_shiftRight_one, toNat_byte_and_one]
  | left => rw [apply, result, toNat_byte_shiftLeft_one, toNat_byte_shiftRight_seven]

/-! ### Instructions -/

/-- The program counter past one word, where there is room for it. -/
theorem State.toNat_pc_advance {s : State} (hp : s.pc.toNat + 2 ≤ 0xFFFF) :
    s.advance.pc.toNat = s.pc.toNat + 2 := by
  change (s.pc + 2).toNat = _
  rw [UInt16.toNat_add]
  change (s.pc.toNat + 2) % 65536 = _
  omega

namespace Instruction

variable {s : State}

/-- Storing a value and then a flag, if there is one, and going on to the next word. -/
theorem receives_setReg (hp : s.pc.toNat + 2 ≤ 0xFFFF) (x : Register) (value : UInt8)
    (flag : Option UInt8) :
    s.Receives x value.toNat (flag.map UInt8.toNat)
      ((s.setReg x value).setFlag flag).advance where
  flag_eq := by
    intro bit hbit
    obtain ⟨byte, rfl, rfl⟩ := Option.map_eq_some_iff.mp hbit
    change (((s.setReg x value).setReg .flag byte).reg .flag).toNat = _
    rw [State.reg_setReg, if_pos rfl]
  value_eq := by
    intro hx
    cases flag with
    | none =>
      change ((s.setReg x value).reg x).toNat = _
      rw [State.reg_setReg, if_pos rfl]
    | some byte =>
      have hne : Register.flag ≠ x := fun he ↦ nomatch hx he.symm
      change (((s.setReg x value).setReg .flag byte).reg x).toNat = _
      rw [State.reg_setReg, if_neg hne, State.reg_setReg, if_pos rfl]
  kept := by
    intro r hr hf
    cases flag with
    | none =>
      change (s.setReg x value).reg r = _
      rw [State.reg_setReg, if_neg hr.symm]
    | some byte =>
      have hne : Register.flag ≠ r := fun he ↦ nomatch hf he.symm
      change ((s.setReg x value).setReg .flag byte).reg r = _
      rw [State.reg_setReg, if_neg hne, State.reg_setReg, if_neg hr.symm]
  pc_eq := by
    rw [State.setFlag_eq]
    exact State.toNat_pc_advance hp
  rest_eq := by
    rw [State.setFlag_eq]
    rfl

private theorem exists_execute_combine (hp : s.pc.toNat + 2 ≤ 0xFFFF) (how : Combination)
    (x y : Register) (keys : Keypad) (noise : UInt8) :
    let result := how.result (s.reg x).toNat (s.reg y).toNat
    ∃ t, (combine how x y).execute s keys noise = .ok t ∧ s.Receives x result.1 result.2 t := by
  rw [← how.toNat_apply]
  exact ⟨_, rfl, receives_setReg hp x _ _⟩

private theorem exists_execute_shift (hp : s.pc.toNat + 2 ≤ 0xFFFF) (direction : Shift)
    (x : Register) (keys : Keypad) (noise : UInt8) :
    let result := direction.result (s.reg x).toNat
    ∃ t, (shift direction x).execute s keys noise = .ok t ∧
      s.Receives x result.1 result.2 t := by
  rw [← direction.toNat_apply]
  exact ⟨_, rfl, receives_setReg hp x _ (some _)⟩

private theorem exists_execute_addByte (hp : s.pc.toNat + 2 ≤ 0xFFFF) (x : Register) (byte : UInt8)
    (keys : Keypad) (noise : UInt8) :
    ∃ t, (addByte x byte).execute s keys noise = .ok t ∧
      s.Receives x (((s.reg x).toNat + byte.toNat) % 256) none t := by
  change ∃ t, _ ∧ s.Receives x (((s.reg x).toNat + byte.toNat) % 2 ^ 8) none t
  rw [← UInt8.toNat_add]
  exact ⟨_, rfl, receives_setReg hp x _ none⟩

/-- Arithmetic and flags are right whichever registers a word names. A word of arithmetic that runs
in a state with room for the next program counter succeeds. Its first register gets the value that
the word computes from the old values of its registers, the flag register gets the flag if there is
one, even where it is the first register too, and every other register keeps its value. Nothing else
changes but the program counter, which moves to the next word. -/
theorem arithmetic_exact (w : Word) (hp : s.pc.toNat + 2 ≤ 0xFFFF) (keys : Keypad) (noise : UInt8)
    {value : Nat} {flag : Option Nat}
    (h : w.result? (s.reg w.x).toNat (s.reg w.y).toNat = some (value, flag)) :
    ∃ t, (decode w).execute s keys noise = .ok t ∧ s.Receives w.x value flag t := by
  have hcombine (how : Combination) := exists_execute_combine hp how w.x w.y keys noise
  have hshift (direction : Shift) := exists_execute_shift hp direction w.x keys noise
  unfold Word.result? at h
  split at h <;> cases h
  · next hf =>
    simp only [decode, hf]
    exact exists_execute_addByte hp w.x w.low keys noise
  -- The words of family 8, in the order of their least significant nibbles.
  · next hf hn =>
    simp only [decode, hf, decodeArithmetic, hn]
    exact hcombine .copy
  · next hf hn =>
    simp only [decode, hf, decodeArithmetic, hn]
    exact hcombine .or
  · next hf hn =>
    simp only [decode, hf, decodeArithmetic, hn]
    exact hcombine .and
  · next hf hn =>
    simp only [decode, hf, decodeArithmetic, hn]
    exact hcombine .xor
  · next hf hn =>
    simp only [decode, hf, decodeArithmetic, hn]
    exact hcombine .add
  · next hf hn =>
    simp only [decode, hf, decodeArithmetic, hn]
    exact hcombine .sub
  · next hf hn =>
    simp only [decode, hf, decodeArithmetic, hn]
    exact hshift .right
  · next hf hn =>
    simp only [decode, hf, decodeArithmetic, hn]
    exact hcombine .subFrom
  · next hf hn =>
    simp only [decode, hf, decodeArithmetic, hn]
    exact hshift .left

/-- The flag register added to itself holds the carry in the end. -/
theorem arithmetic_exact_of_flag_doubled :
    let s := State.initial.setReg .flag 200
    let w : Word := 0x8FF4
    s.pc.toNat + 2 ≤ 0xFFFF ∧
      w.result? (s.reg w.x).toNat (s.reg w.y).toNat = some (144, some 1) ∧
      ∃ t, (decode w).execute s .allUp 0 = .ok t ∧ (t.reg .flag).toNat = 1 := by
  intro s w
  have hp : s.pc.toNat + 2 ≤ 0xFFFF := by decide +kernel +zetaReduce
  have h : w.result? (s.reg w.x).toNat (s.reg w.y).toNat = some (144, some 1) := by
    decide +kernel +zetaReduce
  obtain ⟨t, ht, hr⟩ := arithmetic_exact w hp .allUp 0 h
  exact ⟨hp, h, t, ht, hr.flag_eq 1 rfl⟩

end Instruction

end ChipEight
