import ChipEight.Instruction.Mnemonic
import ChipEight.Text.Numeral.Reading

/-!
# Reading mnemonics

The instruction that a mnemonic stands for. A mnemonic is a name, followed by up to three operands
with commas between them. Many names are shared, and what the operands are tells the instructions of
one name apart: registers, numbers behind the mark `0x`, or other texts such as `DT` and `[I]`.
Every instruction is read back from its mnemonic, so no two instructions have the same one.
-/

namespace ChipEight.Mnemonic

/-- The last nibble of a number. -/
def nibble (n : Nat) : Fin 16 := ⟨n % 16, Nat.mod_lt n (by decide)⟩

/-- A nibble is the last one of its own number. -/
@[simp] theorem nibble_val (x : Fin 16) : nibble x.val = x := Fin.ext (Nat.mod_eq_of_lt x.isLt)

/-- What an operand says: a register, a number behind the mark `0x`, or something else. -/
inductive Operand where
  | register (x : Register)
  | number (n : Nat)
  | other (text : String)
  deriving DecidableEq

/-- What the text of an operand says. -/
def Operand.ofText (text : List Char) : Operand :=
  match text with
  | ['V', digit] =>
    ((Numeral.digitValue? digit).map fun n ↦ .register (nibble n)).getD (.other (.ofList text))
  | '0' :: 'x' :: digits =>
    ((Numeral.value? 16 digits).map .number).getD (.other (.ofList text))
  | _ => .other (.ofList text)

/-- The name and the operands of a mnemonic, without the commas and blanks between them. -/
def words (text : String) : List (List Char) := (text.toList.filter (· != ',')).splitOn ' '

/-- The instruction with a name and operands. -/
def instruction? (name : String) : List Operand → Option Instruction
  | [] =>
    match name with
    | "CLS" => some .clear
    | "RET" => some .ret
    | _ => none
  | [.number n] =>
    match name with
    | "SYS" => some (.native (.ofNat n))
    | "JP" => some (.jump (.ofNat n))
    | "CALL" => some (.call (.ofNat n))
    | "DW" => some (.data (.ofNat n))
    | _ => none
  | [.register x] =>
    match name with
    | "SHR" => some (.shift .right x)
    | "SHL" => some (.shift .left x)
    | "SKP" => some (.skip (.keyDown x))
    | "SKNP" => some (.skip (.keyUp x))
    | _ => none
  | [.register x, .number n] =>
    match name with
    | "SE" => some (.skip (.byteEq x (.ofNat n)))
    | "SNE" => some (.skip (.byteNe x (.ofNat n)))
    | "LD" => some (.setByte x (.ofNat n))
    | "ADD" => some (.addByte x (.ofNat n))
    | "RND" => some (.random x (.ofNat n))
    | "JP" => if x = .offset then some (.jumpOffset (.ofNat n)) else none
    | _ => none
  | [.register x, .register y] =>
    match name with
    | "SE" => some (.skip (.regEq x y))
    | "SNE" => some (.skip (.regNe x y))
    | "LD" => some (.combine .copy x y)
    | "OR" => some (.combine .or x y)
    | "AND" => some (.combine .and x y)
    | "XOR" => some (.combine .xor x y)
    | "ADD" => some (.combine .add x y)
    | "SUB" => some (.combine .sub x y)
    | "SUBN" => some (.combine .subFrom x y)
    | _ => none
  | [.register x, .other source] =>
    match name, source with
    | "LD", "DT" => some (.getDelay x)
    | "LD", "K" => some (.awaitKey x)
    | "LD", "[I]" => some (.loadRegs x)
    | _, _ => none
  | [.other target, .register x] =>
    match name, target with
    | "LD", "DT" => some (.setDelay x)
    | "LD", "ST" => some (.setSound x)
    | "ADD", "I" => some (.addIndex x)
    | "LD", "F" => some (.indexDigit x)
    | "LD", "B" => some (.storeDecimal x)
    | "LD", "[I]" => some (.storeRegs x)
    | _, _ => none
  | [.other target, .number n] =>
    match name, target with
    | "LD", "I" => some (.setIndex (.ofNat n))
    | _, _ => none
  | [.register x, .register y, .other height] =>
    match name with
    | "DRW" => (Numeral.value? 10 height.toList).map fun n ↦ .draw x y (.ofNat n)
    | _ => none
  | _ => none

/-- The instruction that a mnemonic stands for. -/
def read? (text : String) : Option Instruction :=
  match words text with
  | [] => none
  | name :: operands => instruction? (.ofList name) (operands.map Operand.ofText)

/-! ### Words of mnemonics -/

/-- Neither blanks nor commas are in a text. -/
def Plain (text : String) : Prop := ' ' ∉ text.toList ∧ ',' ∉ text.toList

/-- Plainness is looked up among the characters of a text. -/
instance (text : String) : Decidable (Plain text) := inferInstanceAs (Decidable (_ ∧ _))

/-- A plain text says something as an operand. -/
structure Says (text : String) (operand : Operand) : Prop where
  plain : Plain text
  ofText_eq : Operand.ofText text.toList = operand

variable {name a b c : String} {p q r : Operand}

private theorem Plain.filter_eq (h : Plain a) : a.toList.filter (· != ',') = a.toList :=
  List.filter_eq_self.mpr fun _ hd ↦ bne_iff_ne.mpr fun he ↦ h.2 (he ▸ hd)

private theorem read?_of_filter (said : List (String × Operand)) {text : String} (hn : Plain name)
    (hs : ∀ s ∈ said, Says s.1 s.2)
    (h : text.toList.filter (· != ',') =
      [' '].intercalate (name.toList :: said.map (·.1.toList))) :
    read? text = instruction? name (said.map (·.2)) := by
  have hwords : words text = name.toList :: said.map (·.1.toList) := by
    rw [words, h]
    apply List.splitOn_intercalate _ _ (List.cons_ne_nil _ _)
    intro word hw
    rcases List.mem_cons.mp hw with rfl | hw
    · exact hn.1
    · obtain ⟨s, hm, rfl⟩ := List.mem_map.mp hw
      exact (hs s hm).plain.1
  have hsaid : (said.map (·.1.toList)).map Operand.ofText = said.map (·.2) := by
    rw [List.map_map]
    exact List.map_congr_left fun s hm ↦ (hs s hm).ofText_eq
  simp only [read?, hwords, hsaid, String.ofList_toList]

private theorem read?_one (name : String) (hn : Plain name) (ha : Says a p) :
    read? (name ++ " " ++ a) = instruction? name [p] := by
  refine read?_of_filter [(a, p)] hn (by simp [ha]) ?_
  simp [hn.filter_eq, ha.plain.filter_eq, List.intercalate]

private theorem read?_two (name : String) (hn : Plain name) (ha : Says a p) (hb : Says b q) :
    read? (name ++ " " ++ Instruction.operands a b) = instruction? name [p, q] := by
  refine read?_of_filter [(a, p), (b, q)] hn (by simp [ha, hb]) ?_
  simp [Instruction.operands, hn.filter_eq, ha.plain.filter_eq, hb.plain.filter_eq,
    List.intercalate]

private theorem read?_three (name : String) (hn : Plain name) (ha : Says a p) (hb : Says b q)
    (hc : Says c r) :
    read? (name ++ " " ++ Instruction.operands a (Instruction.operands b c)) =
      instruction? name [p, q, r] := by
  refine read?_of_filter [(a, p), (b, q), (c, r)] hn (by simp [ha, hb, hc]) ?_
  simp [Instruction.operands, hn.filter_eq, ha.plain.filter_eq, hb.plain.filter_eq,
    hc.plain.filter_eq, List.intercalate]

/-! ### Operands -/

private theorem plain_padded (width n : Nat) :
    ' ' ∉ Numeral.padded width 16 n ∧ ',' ∉ Numeral.padded width 16 n :=
  ⟨Numeral.notMem_padded (by decide) (by decide) rfl width n,
    Numeral.notMem_padded (by decide) (by decide) rfl width n⟩

private theorem says_register (x : Register) : Says x.name (.register x) := by
  have hl : x.name.toList = 'V' :: Numeral.padded 1 16 x.val := by
    simp [Register.name, Numeral.hex]
  have hd : Numeral.padded 1 16 x.val = [Numeral.digitChar x.val] := by
    rw [Numeral.padded, Numeral.digits_of_lt x.isLt]
    rfl
  refine ⟨?_, ?_⟩
  · simpa [Plain, hl] using plain_padded 1 x.val
  · simp [hl, hd, Operand.ofText, Numeral.digitValue?_digitChar x.isLt]

private theorem says_hexMarked (width n : Nat) : Says (Numeral.hexMarked width n) (.number n) := by
  have hl : (Numeral.hexMarked width n).toList = '0' :: 'x' :: Numeral.padded width 16 n := by
    simp [Numeral.hexMarked, Numeral.hex]
  refine ⟨?_, ?_⟩
  · simpa [Plain, hl] using plain_padded width n
  · simp [hl, Operand.ofText, Numeral.value?_padded]

private theorem ofText_of_notMem {text : List Char} (hv : 'V' ∉ text) (hx : 'x' ∉ text) :
    Operand.ofText text = .other (.ofList text) := by
  unfold Operand.ofText
  split
  · exact absurd List.mem_cons_self hv
  · exact absurd (List.mem_cons_of_mem _ List.mem_cons_self) hx
  · rfl

private theorem says_decimal (n : Nat) : Says (Numeral.decimal n) (.other (Numeral.decimal n)) := by
  refine ⟨⟨Numeral.notMem_decimal rfl n, Numeral.notMem_decimal rfl n⟩, ?_⟩
  rw [ofText_of_notMem (Numeral.notMem_decimal rfl n) (Numeral.notMem_decimal rfl n),
    String.ofList_toList]

private theorem says_self (text : String)
    (h : Plain text ∧ Operand.ofText text.toList = .other text) :
    Says text (.other text) :=
  ⟨h.1, h.2⟩

/-! ### Mnemonics -/

private theorem read?_mnemonic_skip (condition : Condition) :
    read? condition.mnemonic = some (.skip condition) := by
  cases condition with
  | byteEq x byte =>
    exact (read?_two "SE" (by decide) (says_register x) (says_hexMarked ..)).trans
      (by simp [instruction?])
  | byteNe x byte =>
    exact (read?_two "SNE" (by decide) (says_register x) (says_hexMarked ..)).trans
      (by simp [instruction?])
  | regEq x y => exact read?_two "SE" (by decide) (says_register x) (says_register y)
  | regNe x y => exact read?_two "SNE" (by decide) (says_register x) (says_register y)
  | keyDown x => exact read?_one "SKP" (by decide) (says_register x)
  | keyUp x => exact read?_one "SKNP" (by decide) (says_register x)

private theorem read?_mnemonic_combine (how : Combination) (x y : Register) :
    read? (Instruction.combine how x y).mnemonic = some (.combine how x y) := by
  have hx := says_register x
  have hy := says_register y
  cases how with
  | copy => exact read?_two "LD" (by decide) hx hy
  | or => exact read?_two "OR" (by decide) hx hy
  | and => exact read?_two "AND" (by decide) hx hy
  | xor => exact read?_two "XOR" (by decide) hx hy
  | add => exact read?_two "ADD" (by decide) hx hy
  | sub => exact read?_two "SUB" (by decide) hx hy
  | subFrom => exact read?_two "SUBN" (by decide) hx hy

/-- Every instruction is read back from its mnemonic. -/
theorem read?_mnemonic (ins : Instruction) : read? ins.mnemonic = some ins := by
  cases ins with
  | native address =>
    exact (read?_one "SYS" (by decide) (says_hexMarked ..)).trans (by simp [instruction?])
  | clear => rfl
  | ret => rfl
  | jump address =>
    exact (read?_one "JP" (by decide) (says_hexMarked ..)).trans (by simp [instruction?])
  | call address =>
    exact (read?_one "CALL" (by decide) (says_hexMarked ..)).trans (by simp [instruction?])
  | skip condition => exact read?_mnemonic_skip condition
  | setByte x byte =>
    exact (read?_two "LD" (by decide) (says_register x) (says_hexMarked ..)).trans
      (by simp [instruction?])
  | addByte x byte =>
    exact (read?_two "ADD" (by decide) (says_register x) (says_hexMarked ..)).trans
      (by simp [instruction?])
  | combine how x y => exact read?_mnemonic_combine how x y
  | shift direction x =>
    cases direction with
    | right => exact read?_one "SHR" (by decide) (says_register x)
    | left => exact read?_one "SHL" (by decide) (says_register x)
  | setIndex address =>
    exact (read?_two "LD" (by decide) (says_self "I" (by decide)) (says_hexMarked ..)).trans
      (by simp [instruction?])
  | jumpOffset address =>
    have hv : Says "V0" (.register .offset) := ⟨by decide, by decide⟩
    exact (read?_two "JP" (by decide) hv (says_hexMarked ..)).trans (by simp [instruction?])
  | random x mask =>
    exact (read?_two "RND" (by decide) (says_register x) (says_hexMarked ..)).trans
      (by simp [instruction?])
  | draw x y height =>
    have hread : instruction? "DRW"
        [.register x, .register y, .other (Numeral.decimal height.toNat)] =
        some (.draw x y height) := by
      simp [instruction?, Numeral.decimal, Numeral.value?_digits]
    exact (read?_three "DRW" (by decide) (says_register x) (says_register y)
      (says_decimal height.toNat)).trans hread
  | getDelay x => exact read?_two "LD" (by decide) (says_register x) (says_self "DT" (by decide))
  | awaitKey x => exact read?_two "LD" (by decide) (says_register x) (says_self "K" (by decide))
  | setDelay x => exact read?_two "LD" (by decide) (says_self "DT" (by decide)) (says_register x)
  | setSound x => exact read?_two "LD" (by decide) (says_self "ST" (by decide)) (says_register x)
  | addIndex x => exact read?_two "ADD" (by decide) (says_self "I" (by decide)) (says_register x)
  | indexDigit x => exact read?_two "LD" (by decide) (says_self "F" (by decide)) (says_register x)
  | storeDecimal x => exact read?_two "LD" (by decide) (says_self "B" (by decide)) (says_register x)
  | storeRegs x => exact read?_two "LD" (by decide) (says_self "[I]" (by decide)) (says_register x)
  | loadRegs x => exact read?_two "LD" (by decide) (says_register x) (says_self "[I]" (by decide))
  | data word =>
    exact (read?_one "DW" (by decide) (says_hexMarked ..)).trans (by simp [instruction?])

/-- Different instructions have different mnemonics. -/
theorem mnemonic_inj {a b : Instruction} : a.mnemonic = b.mnemonic ↔ a = b := by
  refine ⟨fun h ↦ ?_, congrArg Instruction.mnemonic⟩
  have hread := congrArg read? h
  rw [read?_mnemonic, read?_mnemonic] at hread
  exact Option.some.inj hread

end ChipEight.Mnemonic
