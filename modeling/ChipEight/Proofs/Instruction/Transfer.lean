import ChipEight.Instruction.Execute

/-!
# Transfers between registers and memory

Storing registers and loading them undo each other. What was stored from the index on is what a
later load finds there, in any state with the same index and the same bytes behind it; and storing
what was just loaded leaves memory as it is. The decimal digits of a value come back as three
registers that make up the value. None of these instructions moves the index, so one can follow the
other.
-/

namespace ChipEight

private theorem decimalDigits_eq (a : UInt8) :
    ∃ hundreds tens units : UInt8, decimalDigits a = [hundreds, tens, units] ∧
      hundreds.toNat ≤ 9 ∧ tens.toNat ≤ 9 ∧ units.toNat ≤ 9 ∧
      100 * hundreds.toNat + 10 * tens.toNat + units.toNat = a.toNat := by
  have ha := a.toNat_lt
  refine ⟨_, _, _, rfl, ?_⟩
  simp only [UInt8.toNat_div, UInt8.toNat_mod, UInt8.reduceToNat]
  omega

namespace Instruction

variable {s : State} (keys : Keypad) (noise : UInt8)

private theorem execute_storeRegs {x : Register} {memory : Memory}
    (h : s.memory.write s.i (s.regsUpTo x) = .ok memory) :
    (storeRegs x).execute s keys noise = .ok { s.advance with memory } := by
  rw [execute, h]
  rfl

private theorem execute_loadRegs {x : Register} {values : List UInt8}
    (h : s.memory.readShort s.i x.count = .ok values) :
    (loadRegs x).execute s keys noise = .ok (s.setRegs values).advance := by
  rw [execute, h]
  rfl

private theorem execute_storeDecimal {x : Register} {memory : Memory}
    (h : s.memory.write s.i (decimalDigits (s.reg x)) = .ok memory) :
    (storeDecimal x).execute s keys noise = .ok { s.advance with memory } := by
  rw [execute, h]
  rfl

/-- After registers have been stored, their values are found where the index points. -/
theorem exists_execute_storeRegs {x : Register} (h : s.i.toNat + (x.val + 1) ≤ Memory.size) :
    ∃ t, (storeRegs x).execute s keys noise = .ok t ∧ t.i = s.i ∧
      ∀ r ≤ x, t.memory.bytes[s.i.toNat + r.val]? = some (s.reg r) := by
  have hlen := s.length_regsUpTo x
  obtain ⟨memory, hw⟩ := s.memory.exists_write (hlen.symm ▸ h)
  refine ⟨_, execute_storeRegs keys noise hw, s.i_advance, ?_⟩
  intro r hr
  have hk : r.val < (s.regsUpTo x).length := hlen ▸ Nat.lt_succ_of_le hr
  rw [Memory.getElem?_window_of_write hw hk, State.getElem?_regsUpTo, if_pos hr]

/-- Registers that are loaded where the values of others are found get these values. -/
theorem exists_execute_loadRegs {u : State} {x : Register}
    (h : s.i.toNat + (x.val + 1) ≤ Memory.size) (hi : u.i = s.i)
    (hm : ∀ r ≤ x, u.memory.bytes[s.i.toNat + r.val]? = some (s.reg r)) :
    ∃ w, (loadRegs x).execute u keys noise = .ok w ∧ w.i = s.i ∧
      ∀ r, w.reg r = if r ≤ x then s.reg r else u.reg r := by
  have hlen := s.length_regsUpTo x
  have hread : u.memory.readShort u.i x.count = .ok (s.regsUpTo x) := by
    rw [hi]
    apply Memory.readShort_of_getElem? (hlen.trans x.toNat_count.symm) (hlen.symm ▸ h)
    intro k hk
    rw [hlen] at hk
    obtain ⟨r, rfl⟩ : ∃ r : Register, r.val = k := ⟨⟨k, by omega⟩, rfl⟩
    have hr : r ≤ x := Nat.le_of_lt_succ hk
    rw [hm r hr, State.getElem?_regsUpTo, if_pos hr]
  refine ⟨_, execute_loadRegs keys noise hread, ?_, ?_⟩
  · rw [State.i_advance, State.i_setRegs, hi]
  · intro r
    rw [State.reg_advance, State.reg_setRegs_regsUpTo]

/-- Storing the registers that were just loaded leaves memory as it is. -/
theorem exists_execute_load_store {x : Register} (h : s.i.toNat + (x.val + 1) ≤ Memory.size)
    (keys' : Keypad) (noise' : UInt8) :
    ∃ t u, (loadRegs x).execute s keys noise = .ok t ∧
      (storeRegs x).execute t keys' noise' = .ok u ∧
      t.i = s.i ∧ u.i = s.i ∧ u.memory = s.memory := by
  obtain ⟨values, hr⟩ : ∃ values, s.memory.readShort s.i x.count = .ok values :=
    s.memory.exists_readShort (x.toNat_count.symm ▸ h)
  have hi : (s.setRegs values).advance.i = s.i := by rw [State.i_advance, State.i_setRegs]
  have hstored : (s.setRegs values).advance.regsUpTo x = values :=
    s.regsUpTo_setRegs ((Memory.length_of_readShort hr).trans x.toNat_count)
  have hw : (s.setRegs values).advance.memory.write (s.setRegs values).advance.i
      ((s.setRegs values).advance.regsUpTo x) = .ok s.memory := by
    rw [hstored, hi, State.memory_advance, State.memory_setRegs]
    exact Memory.write_of_readShort hr
  refine ⟨_, _, execute_loadRegs keys noise hr, execute_storeRegs keys' noise' hw, hi, ?_, rfl⟩
  rw [State.i_advance, hi]

/-- Loading the decimal digits that were just stored gives three digits that make up the value. -/
theorem exists_execute_digits_load (x : Register) (h : s.i.toNat + 3 ≤ Memory.size)
    (keys' : Keypad) (noise' : UInt8) :
    ∃ t u, (storeDecimal x).execute s keys noise = .ok t ∧
      (loadRegs 2).execute t keys' noise' = .ok u ∧
      t.i = s.i ∧ u.i = s.i ∧
      (u.reg 0).toNat ≤ 9 ∧ (u.reg 1).toNat ≤ 9 ∧ (u.reg 2).toNat ≤ 9 ∧
      100 * (u.reg 0).toNat + 10 * (u.reg 1).toNat + (u.reg 2).toNat = (s.reg x).toNat := by
  obtain ⟨hundreds, tens, units, hd, hdigits⟩ := decimalDigits_eq (s.reg x)
  obtain ⟨memory, hw⟩ : ∃ memory, s.memory.write s.i (decimalDigits (s.reg x)) = .ok memory :=
    s.memory.exists_write h
  have hi : { s.advance with memory }.i = s.i := s.i_advance
  have hread : memory.readShort { s.advance with memory }.i (Register.count 2) =
      .ok (decimalDigits (s.reg x)) := by
    rw [hi]
    exact Memory.readShort_of_write hw rfl
  refine ⟨_, _, execute_storeDecimal keys noise hw, execute_loadRegs keys' noise' hread, hi,
    ?_, ?_⟩
  · rw [State.i_advance, State.i_setRegs, hi]
  · simp only [State.reg_advance, State.reg_setRegs, hd]
    exact hdigits

/-- Registers and digits survive a transfer through memory. Registers that have been stored are
loaded again, all of them or the first few, in any state whose index and whose bytes from there on
are the same, and the others keep their values. Storing what has just been loaded leaves memory as
it is, and the digits of a value come back as three digits that make it up. All of these
instructions succeed where they end within memory, and leave the index in place. -/
theorem transfers_round_trip (s : State) (x : Register) (keys keys' : Keypad)
    (noise noise' : UInt8) :
    (s.i.toNat + x.val ≤ 4095 →
      (∃ t, (storeRegs x).execute s keys noise = .ok t ∧ t.i = s.i ∧
        ∀ u : State, u.i = t.i →
          (∀ k ≤ x.val, u.memory.bytes[u.i.toNat + k]? = t.memory.bytes[t.i.toNat + k]?) →
          ∀ z ≤ x, ∃ w, (loadRegs z).execute u keys' noise' = .ok w ∧ w.i = s.i ∧
            ∀ r, w.reg r = if r ≤ z then s.reg r else u.reg r) ∧
      ∃ t u, (loadRegs x).execute s keys noise = .ok t ∧
        (storeRegs x).execute t keys' noise' = .ok u ∧
        t.i = s.i ∧ u.i = s.i ∧ u.memory = s.memory) ∧
    (s.i.toNat + 2 ≤ 4095 →
      ∃ t u, (storeDecimal x).execute s keys noise = .ok t ∧
        (loadRegs 2).execute t keys' noise' = .ok u ∧
        t.i = s.i ∧ u.i = s.i ∧
        (u.reg 0).toNat ≤ 9 ∧ (u.reg 1).toNat ≤ 9 ∧ (u.reg 2).toNat ≤ 9 ∧
        100 * (u.reg 0).toNat + 10 * (u.reg 1).toNat + (u.reg 2).toNat = (s.reg x).toNat) := by
  constructor
  · intro h
    have hfits : s.i.toNat + (x.val + 1) ≤ Memory.size := Nat.succ_le_succ h
    refine ⟨?_, exists_execute_load_store keys noise hfits keys' noise'⟩
    obtain ⟨t, ht, hi, hstored⟩ := exists_execute_storeRegs keys noise hfits
    refine ⟨t, ht, hi, ?_⟩
    intro u hu hsame z hz
    have hu' : u.i = s.i := hu.trans hi
    have hz' : z.val + 1 ≤ x.val + 1 := Nat.succ_le_succ hz
    apply exists_execute_loadRegs keys' noise' (by omega) hu'
    intro r hr
    have hb := hsame r.val (Nat.le_trans hr hz)
    rw [hu', hi] at hb
    rw [hb, hstored r (Nat.le_trans hr hz)]
  · intro h
    exact exists_execute_digits_load keys noise x (Nat.succ_le_succ h) keys' noise'

/-- All sixteen registers are stored in the last bytes of memory, and the first ten of them loaded
again while the registers are different ones. The digits of 254 go over the font and from there into
registers of which one had held it. -/
theorem transfers_round_trip_of_last_bytes :
    let s := { State.initial with i := 0xFF0, v := .ofFn fun r ↦ UInt8.ofNat (r.val + 7) }
    let font := State.initial.setReg 1 254
    s.i.toNat + (15 : Register).val ≤ 4095 ∧ font.i.toNat + 2 ≤ 4095 ∧
      (∃ t, (storeRegs 15).execute s .allUp 0 = .ok t ∧
        let u := { State.initial with i := 0xFF0, memory := t.memory }
        ∃ w, (loadRegs 9).execute u .allUp 0 = .ok w ∧ w.reg 9 = 16 ∧ w.reg 10 = 0) ∧
      ∃ t u, (storeDecimal 1).execute font .allUp 0 = .ok t ∧
        (loadRegs 2).execute t .allUp 0 = .ok u ∧
        100 * (u.reg 0).toNat + 10 * (u.reg 1).toNat + (u.reg 2).toNat = 254 := by
  intro s font
  have h : s.i.toNat + (15 : Register).val ≤ 4095 := by decide
  have hfont : font.i.toNat + 2 ≤ 4095 := by decide
  refine ⟨h, hfont, ?_, ?_⟩
  · obtain ⟨t, ht, hi, hloads⟩ := ((transfers_round_trip s 15 .allUp .allUp 0 0).1 h).1
    obtain ⟨w, hw, -, hreg⟩ :=
      hloads { State.initial with i := 0xFF0, memory := t.memory } hi.symm (fun k _ ↦ by rw [hi])
        9 (by decide)
    exact ⟨t, ht, w, hw, hreg 9, hreg 10⟩
  · obtain ⟨t, u, ht, hu, -, -, -, -, -, hvalue⟩ :=
      (transfers_round_trip font 1 .allUp .allUp 0 0).2 hfont
    exact ⟨t, u, ht, hu, hvalue⟩

end Instruction

end ChipEight
