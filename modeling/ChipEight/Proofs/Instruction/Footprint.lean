import ChipEight.Instruction.Execute

/-!
# Footprints of instructions

What a successful instruction leaves as it was. Each kind of instruction changes few parts of a
state, and of the registers and of memory only those that its operands and the index name: it has
some target registers, and it stores some number of bytes from the index on.
-/

namespace ChipEight

/-- Whether a combination of two registers has a flag beside its result. -/
def Combination.flags : Combination → Bool
  | .add | .sub | .subFrom => true
  | .copy | .or | .and | .xor => false

namespace Instruction

/-- The registers that an instruction may change. -/
def targets : Instruction → List Register
  | .setByte x _ | .addByte x _ | .random x _ | .getDelay x | .awaitKey x => [x]
  | .combine how x _ => if how.flags then [x, .flag] else [x]
  | .shift _ x => [x, .flag]
  | .draw _ _ _ => [.flag]
  | .loadRegs x => (List.finRange 16).filter (· ≤ x)
  | _ => []

/-- The number of bytes that an instruction stores. -/
def storeLength : Instruction → Nat
  | .storeDecimal _ => 3
  | .storeRegs x => x.val + 1
  | _ => 0

/-- Whether an instruction that runs in a state stores to an address. -/
def storesTo (ins : Instruction) (s : State) (address : Nat) : Bool :=
  decide (s.i.toNat ≤ address ∧ address < s.i.toNat + ins.storeLength)

/-- The second state is the first but for the program counter and for what the instruction may
change. -/
structure Footprint (ins : Instruction) (s t : State) : Prop where
  memory : ∀ address, ins.storesTo s address = false →
      t.memory.bytes[address]? = s.memory.bytes[address]? := by
    exact fun _ _ ↦ rfl
  picture : t.frame = s.frame ∧ t.drawn = s.drawn ∨ ins = .clear ∨
      ∃ x y height, ins = .draw x y height := by
    exact .inl ⟨rfl, rfl⟩
  stack : t.stack = s.stack ∨ ins = .ret ∨ ∃ address, ins = .call address := by
    exact .inl rfl
  index : t.i = s.i ∨ (∃ address, ins = .setIndex address) ∨ (∃ x, ins = .addIndex x) ∨
      ∃ x, ins = .indexDigit x := by
    exact .inl rfl
  delay : t.delay = s.delay ∨ ∃ x, ins = .setDelay x := by exact .inl rfl
  sound : t.sound = s.sound ∨ ∃ x, ins = .setSound x := by exact .inl rfl
  registers : ∀ r, r ∉ ins.targets → t.reg r = s.reg r := by exact fun _ _ ↦ rfl

variable {ins : Instruction} {s t : State}

private theorem footprint_of_write {memory : Memory} {data : List UInt8}
    (h : s.memory.write s.i data = .ok memory) (hl : data.length = ins.storeLength) :
    ins.Footprint s { s.advance with memory } where
  memory := by
    intro address ha
    apply Memory.getElem?_of_write h
    rw [hl]
    exact of_decide_eq_false ha

private theorem reg_setReg_of_ne {x r : Register} (value : UInt8) (h : r ≠ x) :
    (s.setReg x value).reg r = s.reg r := by
  rw [State.reg_setReg, if_neg h.symm]

private theorem reg_setReg_setFlag_of_notMem {x r : Register} (value flag : UInt8)
    (h : r ∉ [x, Register.flag]) : ((s.setReg x value).setFlag (some flag)).reg r = s.reg r := by
  have hx : r ≠ x := List.ne_of_not_mem_cons h
  have hf : r ≠ .flag := List.ne_of_not_mem_cons (List.not_mem_of_not_mem_cons h)
  exact (reg_setReg_of_ne flag hf).trans (reg_setReg_of_ne value hx)

private theorem reg_combine_of_notMem {how : Combination} {x y r : Register} (a b : UInt8)
    (h : r ∉ (combine how x y).targets) :
    ((s.setReg x (how.apply a b).1).setFlag (how.apply a b).2).reg r = s.reg r := by
  cases how with
  | add | sub | subFrom => exact reg_setReg_setFlag_of_notMem _ _ h
  | copy | or | and | xor => exact reg_setReg_of_ne _ (List.ne_of_not_mem_cons h)

private theorem reg_setRegs_of_lt {x r : Register} {values : List UInt8}
    (hl : values.length = x.val + 1) (h : x < r) : (s.setRegs values).reg r = s.reg r := by
  rw [State.reg_setRegs, List.getElem?_eq_none (by rw [hl]; exact h)]
  rfl

/-- A successful instruction stays inside its footprint. -/
theorem footprint_of_execute {keys : Keypad} {noise : UInt8}
    (h : ins.execute s keys noise = .ok t) : ins.Footprint s t := by
  cases ins with
  | native address => cases h; exact {}
  | data word => cases h; exact {}
  | jump address => cases h; exact {}
  | jumpOffset address => cases h; exact {}
  | skip condition =>
    simp only [execute, Except.ok.injEq] at h
    subst h
    split
    · exact {}
    · exact {}
  | clear => cases h; exact { picture := .inr (.inl rfl) }
  | ret =>
    obtain ⟨⟨pc, stack⟩, hp, h⟩ := Fault.ok_of_bind_eq_ok h
    cases h
    exact { stack := .inr (.inl rfl) }
  | call address =>
    obtain ⟨stack, hp, h⟩ := Fault.ok_of_bind_eq_ok h
    cases h
    exact { stack := .inr (.inr ⟨address, rfl⟩) }
  | setByte x byte =>
    cases h
    exact { registers := fun r hr ↦ reg_setReg_of_ne _ (List.ne_of_not_mem_cons hr) }
  | addByte x byte =>
    cases h
    exact { registers := fun r hr ↦ reg_setReg_of_ne _ (List.ne_of_not_mem_cons hr) }
  | random x mask =>
    cases h
    exact { registers := fun r hr ↦ reg_setReg_of_ne _ (List.ne_of_not_mem_cons hr) }
  | getDelay x =>
    cases h
    exact { registers := fun r hr ↦ reg_setReg_of_ne _ (List.ne_of_not_mem_cons hr) }
  | awaitKey x =>
    simp only [execute] at h
    split at h
    · cases h
      exact { registers := fun r hr ↦ reg_setReg_of_ne _ (List.ne_of_not_mem_cons hr) }
    · cases h
      exact {}
  | combine how x y =>
    simp only [execute, Except.ok.injEq] at h
    subst h
    rw [State.setFlag_eq]
    exact { registers := fun r hr ↦ reg_combine_of_notMem _ _ hr }
  | shift direction x =>
    cases h
    exact { registers := fun r hr ↦ reg_setReg_setFlag_of_notMem _ _ hr }
  | setIndex address => cases h; exact { index := .inr (.inl ⟨address, rfl⟩) }
  | addIndex x => cases h; exact { index := .inr (.inr (.inl ⟨x, rfl⟩)) }
  | indexDigit x => cases h; exact { index := .inr (.inr (.inr ⟨x, rfl⟩)) }
  | setDelay x => cases h; exact { delay := .inr ⟨x, rfl⟩ }
  | setSound x => cases h; exact { sound := .inr ⟨x, rfl⟩ }
  | draw x y height =>
    obtain ⟨sprite, hr, h⟩ := Fault.ok_of_bind_eq_ok h
    cases h
    exact
      { picture := .inr (.inr ⟨x, y, height, rfl⟩)
        registers := fun r hr ↦ reg_setReg_of_ne _ (List.ne_of_not_mem_cons hr) }
  | storeDecimal x =>
    obtain ⟨memory, hw, h⟩ := Fault.ok_of_bind_eq_ok h
    cases h
    exact footprint_of_write hw rfl
  | storeRegs x =>
    obtain ⟨memory, hw, h⟩ := Fault.ok_of_bind_eq_ok h
    cases h
    exact footprint_of_write hw (s.length_regsUpTo x)
  | loadRegs x =>
    obtain ⟨values, hr, h⟩ := Fault.ok_of_bind_eq_ok h
    cases h
    have hkept (r : Register) (hn : r ∉ (loadRegs x).targets) :
        (s.setRegs values).reg r = s.reg r := by
      apply reg_setRegs_of_lt ((Memory.length_of_readShort hr).trans x.toNat_count)
      simpa [targets] using hn
    obtain ⟨v, hv⟩ : ∃ v, s.setRegs values = { s with v } := ⟨_, rfl⟩
    rw [hv] at hkept ⊢
    exact { registers := hkept }

end Instruction

end ChipEight
