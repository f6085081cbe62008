import ChipEight.Proofs.Instruction.Arithmetic
import ChipEight.Proofs.Instruction.Effect

/-!
# Control flow

Where the words lead, told by numbers: to an address of their own, back to the newest return
address, over the next word, or on to it. A table on the words says so without reference to
decoding, and every word leads to what the table has for it. The words that the table of
instructions leaves out do nothing else, and a wait for a key while every key is up does nothing at
all.
-/

namespace ChipEight

namespace Word

/-- Whether a word skips the next one: one of two values that should or should not be the same, or
one that names a key that should be down or up. -/
def skips (w : Word) (s : State) (keys : Keypad) : Bool :=
  let a := (s.reg w.x).toNat
  let b := (s.reg w.y).toNat
  let down := keys.isDown ⟨a % 16, Nat.mod_lt _ (by decide)⟩
  match w.family.val with
  | 0x3 => a == w.low.toNat
  | 0x4 => a != w.low.toNat
  | 0x5 => w.n.val == 0 && a == b
  | 0x9 => w.n.val == 0 && a != b
  | 0xE => w.low == 0x9E && down || w.low == 0xA1 && !down
  | _ => false

/-- The address that a word leads to, unless it returns while no return address is live. -/
def successor? (w : Word) (s : State) (keys : Keypad) : Option Nat :=
  match w.family.val with
  | 0x0 =>
    if w = 0x00EE then s.stack.toList.getLast?.map UInt16.toNat else some (s.pc.toNat + 2)
  | 0x1 | 0x2 => some (w.toNat % 4096)
  | 0xB => some (w.toNat % 4096 + (s.reg .offset).toNat)
  | 0xF =>
    if w.low = 0x0A ∧ keys = .allUp then some s.pc.toNat else some (s.pc.toNat + 2)
  | _ => some (s.pc.toNat + if w.skips s keys then 4 else 2)

/-- Whether a word is outside the table of instructions, or calls a routine of the host machine. -/
def isIgnored (w : Word) : Bool :=
  match w.family.val with
  | 0x0 => w != 0x00E0 && w != 0x00EE
  | 0x5 | 0x9 => w.n.val != 0
  | 0x8 => w.n.val ∉ [0x0, 0x1, 0x2, 0x3, 0x4, 0x5, 0x6, 0x7, 0xE]
  | 0xE => w.low.toNat ∉ [0x9E, 0xA1]
  | 0xF => w.low.toNat ∉ [0x07, 0x0A, 0x15, 0x18, 0x1E, 0x29, 0x33, 0x55, 0x65]
  | _ => false

/-- Two words that test opposite conditions on operands of the same values. -/
inductive Opposes (s : State) (w v : Word) : Prop where
  | byte (hw : w.family.val = 0x3) (hv : v.family.val = 0x4) (hx : s.reg w.x = s.reg v.x)
      (hb : w.low = v.low)
  | registers (hw : w.family.val = 0x5 ∧ w.n.val = 0) (hv : v.family.val = 0x9 ∧ v.n.val = 0)
      (hx : s.reg w.x = s.reg v.x) (hy : s.reg w.y = s.reg v.y)
  | key (hw : w.family.val = 0xE ∧ w.low = 0x9E) (hv : v.family.val = 0xE ∧ v.low = 0xA1)
      (hx : s.reg w.x = s.reg v.x)

/-- What control flow promises of the state that follows under a word. -/
structure Leads (w : Word) (s : State) (keys : Keypad) (t : State) : Prop where
  pc_eq : w.successor? s keys = some t.pc.toNat
  ignored : w.isIgnored = true → t = { s with pc := t.pc }
  called : w.family.val = 0x2 → ∃ back : UInt16,
    back.toNat = s.pc.toNat + 2 ∧ t.stack.toList = s.stack.toList ++ [back]
  waits : w.family.val = 0xF → w.low = 0x0A → (∀ key, keys.isDown key = false) → t = s
  receives : w.family.val = 0xF → w.low = 0x0A → ∀ key, keys.isDown key = true →
    (∀ lower < key, keys.isDown lower = false) → s.Receives w.x key.val none t

variable {w v : Word} {s : State} {keys : Keypad}

private theorem Opposes.skips_eq (h : w.Opposes s v) : v.skips s keys = !w.skips s keys := by
  cases h with
  | byte hw hv hx hb => simp only [skips, hw, hv, hx, hb, bne]
  | registers hw hv hx hy => simp [skips, hw, hv, hx, hy, bne]
  | key hw hv hx => simp [skips, hw, hv, hx]

private theorem Opposes.successor?_eq (h : w.Opposes s v) (keys : Keypad) :
    w.successor? s keys = some (s.pc.toNat + if w.skips s keys then 4 else 2) ∧
      v.successor? s keys = some (s.pc.toNat + if v.skips s keys then 4 else 2) := by
  cases h with
  | byte hw hv | registers hw hv | key hw hv =>
    exact ⟨by simp only [successor?, hw], by simp only [successor?, hv]⟩

end Word

namespace Instruction

variable {s t : State} {keys : Keypad} {noise : UInt8}

/-- Whether an instruction always goes on to the next word. -/
def goesOn : Instruction → Bool
  | .ret | .jump _ | .call _ | .jumpOffset _ | .skip _ | .awaitKey _ => false
  | _ => true

/-- The address that an instruction leads to, unless it returns while no return address is live. -/
def next? (s : State) (keys : Keypad) : Instruction → Option Nat
  | .ret => s.stack.toList.getLast?.map UInt16.toNat
  | .jump address | .call address => some address.toNat
  | .jumpOffset address => some (address.toNat + (s.reg .offset).toNat)
  | .skip condition => some (s.pc.toNat + if condition.holds s keys then 4 else 2)
  | .awaitKey _ => some (s.pc.toNat + if keys.lowest? = none then 0 else 2)
  | _ => some (s.pc.toNat + 2)

/-! ### Where instructions lead -/

private theorem toNat_pc_advance_advance (hp : s.pc.toNat ≤ 0xFFFB) :
    s.advance.advance.pc.toNat = s.pc.toNat + 4 := by
  have hn : s.advance.pc.toNat = s.pc.toNat + 2 := State.toNat_pc_advance (by omega)
  rw [State.toNat_pc_advance (by omega), hn]

private theorem pc_of_goesOn {ins : Instruction} (h : ins.execute s keys noise = .ok t)
    (hg : ins.goesOn = true) : t.pc = s.advance.pc := by
  cases effect_of_execute h with
  | jump | jumpOffset | call | ret | wait | skip => cases hg
  | _ => rfl

/-- A successful instruction leads to the address that it should. -/
theorem next?_of_execute {ins : Instruction} (hp : s.pc.toNat ≤ 0xFFFB)
    (ha : ∀ address, ins.address? = some address → address.toNat < Memory.size)
    (h : ins.execute s keys noise = .ok t) : ins.next? s keys = some t.pc.toNat := by
  have hn : s.advance.pc.toNat = s.pc.toNat + 2 := State.toNat_pc_advance (by omega)
  cases ins with
  | ret =>
    obtain ⟨⟨pc, stack⟩, hpop, h⟩ := Fault.ok_of_bind_eq_ok h
    cases h
    rw [next?, CallStack.toList_of_pop hpop, List.getLast?_concat]
    rfl
  | jump address => cases h; rfl
  | call address =>
    obtain ⟨stack, -, h⟩ := Fault.ok_of_bind_eq_ok h
    cases h
    rfl
  | jumpOffset address =>
    cases h
    exact congrArg some (toNat_add_offset (ha address rfl) _).symm
  | skip condition =>
    cases h
    split
    · next hc => rw [next?, if_pos hc, toNat_pc_advance_advance hp]
    · next hc => rw [next?, if_neg hc, hn]
  | awaitKey x =>
    simp only [execute] at h
    split at h
    · next key hk =>
      cases h
      rw [next?, hk, if_neg (Option.some_ne_none key)]
      exact congrArg some hn.symm
    · next hk =>
      cases h
      rw [next?, if_pos hk]
      rfl
  | _ =>
    rw [pc_of_goesOn h rfl, hn]
    rfl

/-! ### What words stand for -/

private theorem byte_beq_eq (a b : UInt8) : (a == b) = (a.toNat == b.toNat) := by
  rw [Bool.eq_iff_iff, beq_iff_eq, beq_iff_eq, UInt8.toNat_inj]

private theorem next?_of_goesOn {ins : Instruction} (h : ins.goesOn = true) :
    ins.next? s keys = some (s.pc.toNat + 2) := by
  cases ins with
  | ret | jump | call | jumpOffset | skip | awaitKey => cases h
  | _ => rfl

private theorem next?_decodeArithmetic (w : Word) :
    (decodeArithmetic w).next? s keys = some (s.pc.toNat + 2) := by
  apply next?_of_goesOn
  unfold decodeArithmetic
  split <;> rfl

private theorem next?_decodeMisc (w : Word) :
    (decodeMisc w).next? s keys =
      if w.low = 0x0A ∧ keys = .allUp then some s.pc.toNat else some (s.pc.toNat + 2) := by
  by_cases hl : w.low = 0x0A
  · simp only [decodeMisc, hl, UInt8.reduceToNat, next?, keys.lowest?_eq_none_iff,
      keys.eq_allUp_iff, true_and]
    split <;> rfl
  · rw [if_neg fun h ↦ hl h.1]
    apply next?_of_goesOn
    unfold decodeMisc
    split
    case h_2 h => exact absurd (UInt8.toNat_inj.mp h) hl
    all_goals rfl

private theorem next?_ite_skip (p : Prop) [Decidable p] (condition : Condition) (w : Word) :
    (if p then skip condition else data w).next? s keys =
      some (s.pc.toNat + if (decide p && condition.holds s keys) = true then 4 else 2) := by
  by_cases hp : p
  · simp only [if_pos hp, decide_eq_true hp, next?, Bool.true_and]
  · rw [if_neg hp, decide_eq_false hp]
    rfl

private theorem next?_keyTest (w : Word) :
    (if w.low = 0x9E then skip (.keyDown w.x)
      else if w.low = 0xA1 then skip (.keyUp w.x) else data w).next? s keys =
      some (s.pc.toNat +
        if (w.low == 0x9E && keys.isDown (lowDigit (s.reg w.x)) ||
          w.low == 0xA1 && !keys.isDown (lowDigit (s.reg w.x))) = true
        then 4 else 2) := by
  by_cases hd : w.low = 0x9E
  · have hu : w.low ≠ 0xA1 := by
      rw [hd]
      decide
    rw [if_pos hd, beq_iff_eq.mpr hd, beq_false_of_ne hu, Bool.true_and, Bool.false_and,
      Bool.or_false]
    rfl
  · rw [if_neg hd, next?_ite_skip, beq_false_of_ne hd, Bool.false_and, Bool.false_or]
    rfl

/-- Every word leads where the instruction does that it stands for. -/
theorem successor?_eq_next? (w : Word) : w.successor? s keys = (decode w).next? s keys := by
  have haddress : w.toNat % 4096 = w.address.toNat := by
    rw [Word.address, UInt16.toNat_ofNat']
    omega
  unfold decode
  split
  case h_1 hf =>
    simp only [Word.successor?, hf]
    by_cases hr : w = 0x00EE
    · subst hr
      rfl
    · rw [if_neg hr, if_neg hr]
      split <;> rfl
  case h_2 hf | h_3 hf | h_12 hf =>
    simp only [Word.successor?, hf, haddress]
    rfl
  case h_4 hf => simp only [Word.successor?, Word.skips, hf, next?, Condition.holds, byte_beq_eq]
  case h_5 hf =>
    simp only [Word.successor?, Word.skips, hf, next?, Condition.holds, byte_beq_eq, bne]
  case h_6 hf =>
    simp only [Word.successor?, Word.skips, hf, next?_ite_skip, Condition.holds, byte_beq_eq]
    rfl
  case h_9 hf =>
    simp only [Word.successor?, Word.skips, hf, next?_decodeArithmetic]
    rfl
  case h_10 hf =>
    simp only [Word.successor?, Word.skips, hf, next?_ite_skip, Condition.holds, byte_beq_eq, bne]
    rfl
  case h_15 hf =>
    simp only [Word.successor?, Word.skips, hf, next?_keyTest]
    rfl
  case h_16 =>
    have hf : w.family.val = 0xF := by grind
    simp only [Word.successor?, hf, next?_decodeMisc]
  all_goals next hf =>
    simp only [Word.successor?, Word.skips, hf]
    rfl

private theorem decodeArithmetic_of_notMem {w : Word}
    (h : w.n.val ∉ [0x0, 0x1, 0x2, 0x3, 0x4, 0x5, 0x6, 0x7, 0xE]) :
    decodeArithmetic w = .data w := by
  unfold decodeArithmetic
  split
  case h_10 => rfl
  all_goals next hn => simp [hn] at h

private theorem decodeMisc_of_notMem {w : Word}
    (h : w.low.toNat ∉ [0x07, 0x0A, 0x15, 0x18, 0x1E, 0x29, 0x33, 0x55, 0x65]) :
    decodeMisc w = .data w := by
  unfold decodeMisc
  split
  case h_10 => rfl
  all_goals next hl => simp [hl] at h

/-- An ignored word stands for a routine of the host machine or for data. -/
theorem decode_of_isIgnored {w : Word} (h : w.isIgnored = true) :
    decode w = .native w.address ∨ decode w = .data w := by
  unfold Word.isIgnored at h
  split at h
  · next hf =>
    obtain ⟨hc, hr⟩ := Bool.and_eq_true_iff.mp h
    simp only [decode, hf, if_neg (bne_iff_ne.mp hc), if_neg (bne_iff_ne.mp hr), true_or]
  · next hf => simp only [decode, hf, if_neg (bne_iff_ne.mp h), or_true]
  · next hf => simp only [decode, hf, if_neg (bne_iff_ne.mp h), or_true]
  · next hf => simp only [decode, hf, decodeArithmetic_of_notMem (of_decide_eq_true h), or_true]
  · next hf =>
    have hd : w.low ≠ 0x9E := fun hl ↦ by simp [hl] at h
    have hu : w.low ≠ 0xA1 := fun hl ↦ by simp [hl] at h
    simp only [decode, hf, if_neg hd, if_neg hu, or_true]
  · next hf => simp only [decode, hf, decodeMisc_of_notMem (of_decide_eq_true h), or_true]
  · cases h

/-! ### The exact flow of control -/

/-- A word leads to the address that the table has for it. -/
theorem successor?_of_execute {w : Word} (hp : s.pc.toNat ≤ 0xFFFB)
    (h : (decode w).execute s keys noise = .ok t) : w.successor? s keys = some t.pc.toNat := by
  rw [successor?_eq_next?]
  exact next?_of_execute hp (fun _ ↦ toNat_address_lt_of_decode) h

private theorem stack_of_call {address : UInt16} (h : (call address).execute s keys noise = .ok t) :
    t.stack.toList = s.stack.toList ++ [s.advance.pc] := by
  obtain ⟨stack, hpush, h⟩ := Fault.ok_of_bind_eq_ok h
  cases h
  exact CallStack.toList_of_push hpush

private theorem decode_awaitKey {w : Word} (hf : w.family.val = 0xF) (hl : w.low = 0x0A) :
    decode w = .awaitKey w.x := by
  simp only [decode, hf, decodeMisc, hl]
  rfl

private theorem receives_of_awaitKey (hp : s.pc.toNat + 2 ≤ 0xFFFF) {x : Register} {key : Key}
    (hk : keys.lowest? = some key) (h : (awaitKey x).execute s keys noise = .ok t) :
    s.Receives x key.val none t := by
  simp only [execute, hk] at h
  cases h
  have hkey : (UInt8.ofNat key.val).toNat = key.val :=
    UInt8.toNat_ofNat_of_lt (Nat.lt_trans key.isLt (by decide))
  have hr := receives_setReg hp x (.ofNat key.val) none
  rwa [hkey] at hr

private theorem exists_execute_of_opposes {w v : Word} (h : w.Opposes s v) :
    ∃ u, (decode v).execute s keys noise = .ok u := by
  cases h with
  | byte _ hv | registers _ hv | key _ hv =>
    simp only [decode, hv]
    exact ⟨_, rfl⟩

/-- Control flow is exact. A word that runs in a state with room for the next two words leads where
the table of words has it lead, and what else control flow promises of the next state holds. Of two
words that test opposite conditions on the same values, one leads over the next word and the other
leads to it. -/
theorem control_flow_exact (w : Word) (hp : s.pc.toNat ≤ 0xFFFB)
    (h : (decode w).execute s keys noise = .ok t) :
    w.Leads s keys t ∧
      ∀ v, w.Opposes s v → ∃ u, (decode v).execute s keys noise = .ok u ∧
        (t.pc.toNat = s.pc.toNat + 4 ∧ u.pc.toNat = s.pc.toNat + 2 ∨
          t.pc.toNat = s.pc.toNat + 2 ∧ u.pc.toNat = s.pc.toNat + 4) := by
  have hsuccessor := successor?_of_execute hp h
  refine ⟨⟨hsuccessor, ?_, ?_, ?_, ?_⟩, ?_⟩
  · intro hi
    have ht : t = s.advance := by
      rcases decode_of_isIgnored hi with hd | hd <;> rw [hd] at h <;> exact (Except.ok.inj h).symm
    rw [ht]
    rfl
  · intro hf
    simp only [decode, hf] at h
    exact ⟨s.advance.pc, State.toNat_pc_advance (by omega), stack_of_call h⟩
  · intro hf hl hup
    rw [decode_awaitKey hf hl] at h
    exact (eq_self_iff_stalls h).mpr (keys.lowest?_eq_none_iff.mpr hup)
  · intro hf hl key hdown hup
    rw [decode_awaitKey hf hl] at h
    exact receives_of_awaitKey (by omega) ((keys.lowest?_eq_some_iff key).mpr ⟨hdown, hup⟩) h
  · intro v hv
    obtain ⟨u, hu⟩ := exists_execute_of_opposes hv
    obtain ⟨hw', hv'⟩ := hv.successor?_eq keys
    rw [hsuccessor] at hw'
    rw [successor?_of_execute hp hu, hv.skips_eq] at hv'
    refine ⟨u, hu, ?_⟩
    rcases Bool.eq_false_or_eq_true (w.skips s keys) with hs | hs
    · rw [hs] at hw' hv'
      exact .inl ⟨Option.some.inj hw', Option.some.inj hv'⟩
    · rw [hs] at hw' hv'
      exact .inr ⟨Option.some.inj hw', Option.some.inj hv'⟩

/-- The low half of a value names a key, so that `1E` in a register names the key `E`. While that
key is down, the word that tests whether it is down leads over the next word and its opposite does
not. A wait receives the lower one of two keys. -/
theorem control_flow_exact_of_two_keys :
    let s := State.initial.setReg 1 0x1E
    let keys := (Keypad.allUp.press 0xE).press 0x4
    s.pc.toNat ≤ 0xFFFB ∧
      (∃ t u, (decode 0xE19E).execute s keys 0 = .ok t ∧ t.pc.toNat = 0x204 ∧
        (decode 0xE1A1).execute s keys 0 = .ok u ∧ u.pc.toNat = 0x202) ∧
      ∃ t, (decode 0xF30A).execute s keys 0 = .ok t ∧ t.pc.toNat = 0x202 ∧
        (t.reg 3).toNat = 4 := by
  intro s keys
  have hp : s.pc.toNat ≤ 0xFFFB := by decide +kernel +zetaReduce
  obtain ⟨t, htest⟩ : ∃ t, (decode 0xE19E).execute s keys 0 = .ok t := ⟨_, rfl⟩
  have hover : Word.successor? 0xE19E s keys = some 0x204 := by decide +kernel +zetaReduce
  obtain ⟨hleads, hopposite⟩ := control_flow_exact 0xE19E hp htest
  obtain ⟨u, hu, hnext⟩ := hopposite 0xE1A1 (.key ⟨rfl, rfl⟩ ⟨rfl, rfl⟩ rfl)
  have ht : t.pc.toNat = 0x204 := Option.some.inj (hleads.pc_eq.symm.trans hover)
  have hs : s.pc.toNat = 0x200 := rfl
  obtain ⟨r, hwait⟩ : ∃ r, (decode 0xF30A).execute s keys 0 = .ok r := ⟨_, rfl⟩
  have hlowest : keys.isDown 4 = true ∧ ∀ lower < 4, keys.isDown lower = false := by
    decide +kernel +zetaReduce
  have hreceived := (control_flow_exact 0xF30A hp hwait).1.receives rfl rfl 4 hlowest.1 hlowest.2
  exact ⟨hp, ⟨t, u, htest, ht, hu, by omega⟩, r, hwait, hreceived.pc_eq,
    hreceived.value_eq fun _ ↦ rfl⟩

end Instruction

end ChipEight
