import ChipEight.Instruction.Checked

/-!
# Checks that succeed

Checked execution has the result of plain execution, fault or not, wherever the program counter and
the address operand leave room for the sums that an instruction needs. Keys, stack slots, bytes and
cells need no such condition: masks, depths and remainders keep their numbers in range.
-/

namespace ChipEight.Checked

variable {α β : Type}

/-- Checks that succeed one after the other give what the plain operations give. -/
theorem run_bind_of_run {x : Checked α} {e : Except Fault α} {f : α → Checked β}
    {g : α → Except Fault β} (hx : x.run = some e)
    (hf : ∀ a, e = .ok a → (f a).run = some (g a)) : (x >>= f).run = some (e >>= g) := by
  rw [ExceptT.run_bind, hx]
  cases e with
  | error fault => rfl
  | ok a => exact hf a rfl

private theorem lift_some_bind (a : α) (f : α → Checked β) :
    ((some a : Option α) : Checked α) >>= f = f a := rfl

private theorem foldlM_eq_some {f : β → α → Option β} {g : β → α → β} {l : List α}
    (h : ∀ b, ∀ a ∈ l, f b a = some (g b a)) (b : β) : l.foldlM f b = some (l.foldl g b) := by
  induction l generalizing b with
  | nil => rfl
  | cons a rest ih =>
    rw [List.foldlM_cons, h b a (by simp)]
    exact ih (fun b' a' ha ↦ h b' a' (by simp [ha])) (g b a)

private theorem mapM_range_eq_some {f : Nat → Option α} {n : Nat} {g : Fin n → α}
    (h : ∀ k, f k.val = some (g k)) : (List.range n).mapM f = some (List.ofFn g) := by
  have hr : List.range n = (List.finRange n).map Fin.val := by
    apply List.ext_getElem
    · simp
    · intro k hk hk'
      simp
  have hg : (List.finRange n).map g = List.ofFn g := by
    simp [List.finRange, List.map_ofFn, Function.comp_def]
  rw [hr, List.mapM_map, ← hg]
  simp only [Function.comp_def, h]
  exact List.mapM_pure

/-! ### Sums and look-ups -/

private theorem add_eq {a b : UInt16} (h : a.toNat + b.toNat < UInt16.size) :
    add a b = some (a + b) :=
  if_pos h

private theorem reg_eq (s : State) (x : Register) : reg s x.val = some (s.reg x) := by
  simp [reg, State.reg]

private theorem setReg_eq (s : State) (x : Register) (value : UInt8) :
    setReg s x.val value = some (s.setReg x value) := by
  simp [setReg, State.setReg]

private theorem setReg_flag (s : State) (value : UInt8) :
    setReg s 0xF value = some (s.setReg .flag value) := setReg_eq s .flag value

private theorem regsUpTo_eq (s : State) (x : Register) : regsUpTo s x.val = some (s.regsUpTo x) :=
  if_pos x.isLt

private theorem setRegsUpTo_eq (s : State) (x : Register) {values : List UInt8}
    (h : values.length = x.val + 1) : setRegsUpTo s x.val values = some (s.setRegs values) :=
  if_pos ⟨x.isLt, h⟩

private theorem toNat_low (value : UInt8) : (value &&& 0xF).toNat = (lowDigit value).val := by
  rw [UInt8.toNat_and]
  exact Nat.and_two_pow_sub_one_eq_mod value.toNat 4

private theorem isDown_eq (keys : Keypad) (value : UInt8) :
    isDown keys value = some (keys.isDown (lowDigit value)) := by
  rw [isDown, toNat_low]
  exact Vector.getElem?_eq_getElem (lowDigit value).isLt

private theorem digitAddress_eq (value : UInt8) :
    digitAddress value = some (Font.address (lowDigit value)) := by
  have hd := (lowDigit value).isLt
  have hl : ((value &&& 0xF).toUInt16).toNat = (lowDigit value).val := by
    rw [UInt8.toNat_toUInt16, toNat_low]
  have hh : (UInt16.ofNat Font.height).toNat = 5 := rfl
  have hs : (UInt16.ofNat Font.start).toNat = 0 := rfl
  have hz : UInt16.size = 65536 := rfl
  have hm : ((value &&& 0xF).toUInt16 * UInt16.ofNat Font.height).toNat =
      5 * (lowDigit value).val := by
    rw [UInt16.toNat_mul, hl, hh]
    omega
  rw [digitAddress, mul, if_pos (by rw [hl, hh]; omega)]
  change add _ _ = _
  rw [add_eq (by rw [hm, hs]; omega)]
  congr 1
  apply UInt16.toNat_inj.mp
  rw [UInt16.toNat_add, hm, hs, Font.address, UInt16.toNat_ofNat']
  simp only [Font.start, Font.height]

private theorem advance_two {s : State} (h : s.pc.toNat + 2 < UInt16.size) :
    advance s 2 = some s.advance := by
  simp only [advance, add_eq (a := s.pc) (b := 2) h]
  rfl

private theorem advance_four {s : State} (h : s.pc.toNat + 4 < UInt16.size) :
    advance s 4 = some s.advance.advance := by
  simp only [advance, add_eq (a := s.pc) (b := 4) h, State.advance, UInt16.add_assoc]
  rfl

/-! ### Stack, memory and picture -/

/-- A push that does not overflow has a slot to fill. -/
theorem run_push (s : CallStack) (addr : UInt16) : (push s addr).run = some (s.push addr) := by
  have := s.depth_le
  unfold push CallStack.push
  split
  · next h => rw [dif_neg (by omega)]; rfl
  · next h =>
    have hd : s.depth < CallStack.capacity := by omega
    simp only [fillSlot, dif_pos hd]
    rfl

/-- A pop that does not underflow has a slot to look up. -/
theorem run_pop (s : CallStack) : (pop s).run = some s.pop := by
  obtain ⟨slots, depth, hd⟩ := s
  cases depth with
  | zero => rfl
  | succ d =>
    have hs : slots[d]? = some slots[d] := Vector.getElem?_eq_getElem hd
    simp only [pop, Nat.add_sub_cancel, hs, CallStack.pop]
    rfl

private theorem cells_eq (m : Memory) {start len : Nat} (h : start + len ≤ Memory.size) :
    cells m start len = some (m.window start len h) := by
  have hb (k : Fin len) : m.bytes[start + k.val]? = some m.bytes[start + k.val] :=
    Vector.getElem?_eq_getElem (by omega)
  exact mapM_range_eq_some hb

/-- The checks of a read fail exactly when the read has no outcome, because the sum of its address
and its length overflows. -/
theorem run_read (m : Memory) (addr : UInt16) (len : UInt64) :
    (read m addr len).run = m.read addr len := by
  unfold read Memory.read addLength
  by_cases hsum : addr.toNat + len.toNat < UInt64.size
  · have hstop : (addr.toUInt64 + len).toNat = addr.toNat + len.toNat := by
      rw [UInt64.toNat_add, UInt16.toNat_toUInt64]
      exact Nat.mod_eq_of_lt hsum
    rw [if_pos hsum, if_neg (Nat.not_le.mpr hsum), lift_some_bind, hstop]
    by_cases hl : addr.toNat + len.toNat ≤ Memory.size
    · rw [if_neg (Nat.not_lt.mpr hl), dif_pos hl, cells_eq m hl]
      rfl
    · rw [if_pos (Nat.lt_of_not_le hl), dif_neg hl]
      rfl
  · rw [if_neg hsum, if_pos (Nat.le_of_not_lt hsum)]
    rfl

/-- A short read passes all checks. -/
theorem run_read_toUInt64 (m : Memory) (addr : UInt16) (len : UInt8) :
    (read m addr len.toUInt64).run = some (m.readShort addr len) := by
  rw [run_read, Memory.read_toUInt64]

private theorem overwrite_eq (cells : Vector UInt8 Memory.size) (start : Nat) (data : List UInt8)
    (h : start + data.length ≤ Memory.size) :
    overwrite cells start data = some (Memory.overwrite cells start data) := by
  induction data generalizing cells start with
  | nil => rfl
  | cons b rest ih =>
    simp only [List.length_cons] at h
    have hs : start < Memory.size := by omega
    have hc : cells.set start b = cells.setIfInBounds start b := by
      apply Vector.ext
      intro k hk
      rw [Vector.getElem_set, Vector.getElem_setIfInBounds]
    rw [overwrite, dif_pos hs, ih _ _ (by omega), hc, Memory.overwrite]

/-- A write that does not leave memory has a cell for each byte. -/
theorem run_write (m : Memory) (addr : UInt16) (data : List UInt8) :
    (write m addr data).run = some (m.write addr data) := by
  unfold write Memory.write
  split
  · next h => rw [if_neg (by omega)]; rfl
  · next h =>
    have hl : addr.toNat + data.length ≤ Memory.size := by omega
    rw [if_pos hl, overwrite_eq _ _ _ hl]
    rfl

/-- A fetched word has two bytes. -/
theorem run_fetch (s : State) : (fetch s).run = some s.fetch := by
  have hr : (read s.memory s.pc 2).run = some (s.memory.readShort s.pc 2) :=
    run_read_toUInt64 s.memory s.pc 2
  rw [fetch, ExceptT.run_bind, hr, Memory.readShort_eq, State.fetch, Memory.readWord]
  by_cases h : s.pc.toNat + 2 ≤ Memory.size
  · have hl : s.pc.toNat + (2 : UInt8).toNat ≤ Memory.size := h
    rw [dif_pos h, dif_pos hl]
    rfl
  · have hl : ¬s.pc.toNat + (2 : UInt8).toNat ≤ Memory.size := h
    rw [dif_neg h, dif_neg hl]
    rfl

private theorem pixel_eq (row : UInt8) {k : Nat} (h : k < 8) :
    pixel row k = some (Drawing.pixel row k) :=
  if_pos (Nat.le_of_lt_succ h)

private theorem plot_eq (d : Drawing) (row col : Nat) (bit : UInt8) :
    plot d (row % Frame.height) (col % Frame.width) bit =
      some (d.plot (Frame.wrapRow row) (Frame.wrapCol col) bit) :=
  dif_pos ⟨Nat.mod_lt _ (by decide), Nat.mod_lt _ (by decide)⟩

private theorem plotRow_eq (d : Drawing) (row col : Nat) (bits : UInt8) :
    plotRow d row col bits = some (d.plotRow row col bits) := by
  unfold plotRow Drawing.plotRow
  apply foldlM_eq_some
  intro d k hk
  rw [pixel_eq bits (List.mem_range.mp hk)]
  exact plot_eq d row (col + k) (Drawing.pixel bits k)

/-- Drawing a sprite passes all checks. -/
theorem plotRows_eq (d : Drawing) (row col : Nat) (sprite : List UInt8) :
    plotRows d row col sprite = some (d.plotRows row col sprite) := by
  induction sprite generalizing d row with
  | nil => rfl
  | cons bits rest ih =>
    rw [plotRows, plotRow_eq, Drawing.plotRows]
    exact ih (d.plotRow row col bits) (row + 1)

/-! ### Instructions -/

/-- Testing a condition passes all checks. -/
theorem holds_eq (s : State) (keys : Keypad) (condition : Condition) :
    holds s keys condition = some (condition.holds s keys) := by
  cases condition with
  | byteEq x byte => simp only [holds, reg_eq]; rfl
  | byteNe x byte => simp only [holds, reg_eq]; rfl
  | regEq x y => simp only [holds, reg_eq]; rfl
  | regNe x y => simp only [holds, reg_eq]; rfl
  | keyDown x =>
    simp only [holds, reg_eq]
    exact isDown_eq keys (s.reg x)
  | keyUp x =>
    simp only [holds, reg_eq, Option.bind_eq_bind, Option.bind_some, isDown_eq]
    rfl

/-- Where the program counter and the address operand leave room for sums, no check of an
instruction fails and the result is that of plain execution. -/
theorem run_execute {ins : Instruction} {s : State} (keys : Keypad) (noise : UInt8)
    (hp : s.pc.toNat + 4 < UInt16.size)
    (ha : ∀ address, ins.address? = some address → address.toNat < Memory.size) :
    (execute ins s keys noise).run = some (ins.execute s keys noise) := by
  have hz : UInt16.size = 65536 := rfl
  have hm : Memory.size = 4096 := rfl
  have h2 (t : State) (ht : t.pc = s.pc) : advance t 2 = some t.advance :=
    advance_two (by rw [ht]; omega)
  have h4 : advance s 4 = some s.advance.advance := advance_four hp
  cases ins with
  | native address => rw [execute, h2 s rfl]; rfl
  | data word => rw [execute, h2 s rfl]; rfl
  | clear => rw [execute, h2 s rfl]; rfl
  | ret => exact run_bind_of_run (run_pop s.stack) fun popped _ ↦ rfl
  | jump address => rfl
  | call address =>
    rw [execute, add_eq (a := s.pc) (b := 2) (by change _ + 2 < _; omega)]
    exact run_bind_of_run (run_push s.stack (s.pc + 2)) fun stack _ ↦ rfl
  | skip condition =>
    simp only [execute, holds_eq, lift_some_bind, h2 s rfl, h4, Instruction.execute]
    split
    · rfl
    · rfl
  | setByte x byte =>
    rw [execute, setReg_eq, lift_some_bind, h2 _ (s.pc_setReg ..)]
    rfl
  | addByte x byte =>
    rw [execute, reg_eq, lift_some_bind, setReg_eq, lift_some_bind, h2 _ (s.pc_setReg ..)]
    rfl
  | combine how x y =>
    simp only [execute, reg_eq, setReg_eq, lift_some_bind, Instruction.execute]
    cases (how.apply (s.reg x) (s.reg y)).2 with
    | none =>
      rw [h2 _ (s.pc_setReg ..)]
      rfl
    | some flag =>
      simp only [setReg_flag, lift_some_bind]
      rw [h2 _ ((State.pc_setReg ..).trans (s.pc_setReg ..))]
      rfl
  | shift direction x =>
    simp only [execute, reg_eq, setReg_eq, setReg_flag, lift_some_bind]
    rw [h2 _ ((State.pc_setReg ..).trans (s.pc_setReg ..))]
    rfl
  | setIndex address => rw [execute, h2 s rfl]; rfl
  | jumpOffset address =>
    have hr : reg s 0 = some (s.reg .offset) := reg_eq s .offset
    have hv := (s.reg .offset).toNat_lt
    have hs := ha address rfl
    simp only [execute, hr, lift_some_bind]
    rw [add_eq (by rw [UInt8.toNat_toUInt16]; omega)]
    rfl
  | random x mask =>
    rw [execute, setReg_eq, lift_some_bind, h2 _ (s.pc_setReg ..)]
    rfl
  | draw x y height =>
    apply run_bind_of_run (run_read_toUInt64 s.memory s.i height)
    intro sprite _
    simp only [reg_eq, plotRows_eq, setReg_flag, lift_some_bind]
    rw [h2 _ (s.pc_setReg ..)]
    rfl
  | getDelay x =>
    rw [execute, setReg_eq, lift_some_bind, h2 _ (s.pc_setReg ..)]
    rfl
  | awaitKey x =>
    simp only [execute, Instruction.execute]
    cases keys.lowest? with
    | none => rfl
    | some key =>
      simp only [setReg_eq, lift_some_bind]
      rw [h2 _ (s.pc_setReg ..)]
      rfl
  | setDelay x => rw [execute, h2 s rfl, reg_eq]; rfl
  | setSound x => rw [execute, h2 s rfl, reg_eq]; rfl
  | addIndex x => rw [execute, h2 s rfl, reg_eq]; rfl
  | indexDigit x => simp only [execute, h2 s rfl, reg_eq, lift_some_bind, digitAddress_eq]; rfl
  | storeDecimal x =>
    simp only [execute, reg_eq, h2 s rfl, lift_some_bind]
    exact run_bind_of_run (run_write s.memory s.i _) fun memory _ ↦ rfl
  | storeRegs x =>
    simp only [execute, regsUpTo_eq, h2 s rfl, lift_some_bind]
    exact run_bind_of_run (run_write s.memory s.i _) fun memory _ ↦ rfl
  | loadRegs x =>
    apply run_bind_of_run (run_read_toUInt64 s.memory s.i x.count)
    intro values hv
    rw [setRegsUpTo_eq s x ((Memory.length_of_readShort hv).trans x.toNat_count), lift_some_bind,
      h2 _ (s.pc_setRegs values)]
    rfl

end ChipEight.Checked
