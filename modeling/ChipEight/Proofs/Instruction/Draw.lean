import ChipEight.Instruction.Execute
import ChipEight.Proofs.Frame.Coverage

/-!
# Drawing instructions

What a draw instruction does to a state, cell by cell. Where the sprite goes is read off the
registers before the flag is stored, so it does not matter whether the flag register is one of the
two that hold the position.
-/

namespace ChipEight

open ChipEight.Frame (rowsDown colsRight wrapRow wrapCol)

/-- Where a sprite goes and where it comes from: the position of its top left pixel, the address of
its first row and the number of its rows. -/
structure Placement where
  row : UInt8
  col : UInt8
  index : UInt16
  height : UInt8
  deriving DecidableEq

/-- Whether the rows of a sprite are no more than those of the picture, and lie within memory. -/
def Placement.Fits (p : Placement) : Prop :=
  p.height.toNat ≤ Frame.height ∧ p.index.toNat + p.height.toNat ≤ Memory.size

/-- Fitting is a comparison of numbers. -/
instance (p : Placement) : Decidable p.Fits := inferInstanceAs (Decidable (_ ∧ _))

/-- The cells on which a sprite in memory has a set pixel. -/
def Placement.covers (p : Placement) (m : Memory) : Frame.Mask := fun r c ↦
  let down := rowsDown p.row.toNat r
  let right := colsRight p.col.toNat c
  decide (right < 8 ∧ down < p.height.toNat) && m.bit (p.index.toNat + down) (7 - right)

/-- Where a draw instruction puts its sprite in a state. -/
def State.placement (s : State) (x y : Register) (height : UInt8) : Placement :=
  ⟨s.reg y, s.reg x, s.i, height⟩

/-- The next state once a drawing is done: it shows the drawing, and the flag register tells of a
collision. -/
def State.withDrawing (s : State) (d : Drawing) : State :=
  { (s.setReg .flag d.collision).advance with frame := d.frame, drawn := true }

/-- The second state is the first with a sprite drawn. -/
structure State.Draws (s : State) (p : Placement) (t : State) : Prop where
  get : ∀ r c, t.frame.get r c = s.frame.get r c ^^^ (p.covers s.memory r c).toUInt8
  flag_cases : t.reg .flag = 0 ∨ t.reg .flag = 1
  flag_iff : t.reg .flag = 1 ↔ ∃ r c, p.covers s.memory r c = true ∧ s.frame.get r c = 1
  reg : ∀ z, z ≠ .flag → t.reg z = s.reg z
  eq : t = { s with pc := s.pc + 2, v := t.v, frame := t.frame, drawn := true }

/-- Within a sprite, the cells covered are those with a set bit. -/
theorem Placement.covers_of_inside {p : Placement} {r : Fin Frame.height} {c : Fin Frame.width}
    (h : colsRight p.col.toNat c < 8 ∧ rowsDown p.row.toNat r < p.height.toNat) (m : Memory) :
    p.covers m r c =
      m.bit (p.index.toNat + rowsDown p.row.toNat r) (7 - colsRight p.col.toNat c) := by
  rw [covers, decide_eq_true h, Bool.true_and]

/-- Outside of a sprite, no cell is covered. -/
theorem Placement.covers_of_outside {p : Placement} {r : Fin Frame.height} {c : Fin Frame.width}
    (h : ¬(colsRight p.col.toNat c < 8 ∧ rowsDown p.row.toNat r < p.height.toNat)) (m : Memory) :
    p.covers m r c = false := by
  rw [covers, decide_eq_false h, Bool.false_and]

/-- The cells covered are those on which the set bits of the rows fall. -/
theorem Placement.exists_covers_iff {p : Placement} (h : p.height.toNat ≤ Frame.height) (m : Memory)
    (P : Fin Frame.height → Fin Frame.width → Prop) :
    (∃ r c, p.covers m r c = true ∧ P r c) ↔
      ∃ k < p.height.toNat, ∃ j < 8, m.bit (p.index.toNat + k) (7 - j) = true ∧
        P (wrapRow (p.row.toNat + k)) (wrapCol (p.col.toNat + j)) := by
  have hheight (k : Nat) (hk : k < p.height.toNat) : k < Frame.height := Nat.lt_of_lt_of_le hk h
  have hwidth (j : Nat) (hj : j < 8) : j < Frame.width := Nat.lt_trans hj (by decide)
  constructor
  · rintro ⟨r, c, hc, hP⟩
    by_cases hin : colsRight p.col.toNat c < 8 ∧ rowsDown p.row.toNat r < p.height.toNat
    · rw [covers_of_inside hin] at hc
      refine ⟨_, hin.2, _, hin.1, hc, ?_⟩
      rw [(Frame.wrapRow_add_eq_iff _ (hheight _ hin.2) r).mpr rfl,
        (Frame.wrapCol_add_eq_iff _ (hwidth _ hin.1) c).mpr rfl]
      exact hP
    · rw [covers_of_outside hin] at hc
      cases hc
  · rintro ⟨k, hk, j, hj, hbit, hP⟩
    have hdown := (Frame.wrapRow_add_eq_iff p.row.toNat (hheight k hk) _).mp rfl
    have hright := (Frame.wrapCol_add_eq_iff p.col.toNat (hwidth j hj) _).mp rfl
    refine ⟨_, _, ?_, hP⟩
    rw [covers_of_inside (by rw [hdown, hright]; exact ⟨hj, hk⟩), hdown, hright]
    exact hbit

/-- A sprite covers some cell exactly if one of its rows is not empty. -/
theorem Placement.exists_covers_iff_ne_zero {p : Placement} (h : p.height.toNat ≤ Frame.height)
    (m : Memory) :
    (∃ r c, p.covers m r c = true) ↔
      ∃ k < p.height.toNat, ∃ bits, m.bytes[p.index.toNat + k]? = some bits ∧ bits ≠ 0 := by
  have hany := exists_covers_iff h m fun _ _ ↦ True
  simpa only [and_true, Memory.exists_bit_iff] using hany

private theorem Placement.covers_of_read {p : Placement} {m : Memory} {sprite : List UInt8}
    (h : m.readShort p.index p.height = .ok sprite) (r : Fin Frame.height) (c : Fin Frame.width) :
    Frame.covers sprite p.row.toNat p.col.toNat r c = p.covers m r c := by
  by_cases hd : rowsDown p.row.toNat r < p.height.toNat
  · simp [Frame.covers, covers, Memory.bit, Memory.getElem?_of_readShort h hd, hd]
  · have hout : sprite[rowsDown p.row.toNat r]? = none := by
      rw [List.getElem?_eq_none_iff, Memory.length_of_readShort h]
      exact Nat.not_lt.mp hd
    simp [Frame.covers, covers, hout, hd]

private theorem State.reg_withDrawing (s : State) (d : Drawing) (z : Register) :
    (s.withDrawing d).reg z = if Register.flag = z then d.collision else s.reg z :=
  s.reg_setReg .flag z d.collision

private theorem State.draws_of_flips {s : State} {p : Placement} {d : Drawing}
    (h : d.Flips s.frame (p.covers s.memory)) : s.Draws p (s.withDrawing d) where
  get := h.get
  flag_cases := by
    rw [s.reg_withDrawing, if_pos rfl]
    exact h.collision_cases
  flag_iff := by
    rw [s.reg_withDrawing, if_pos rfl]
    exact h.collision_iff
  reg := by
    intro z hz
    rw [s.reg_withDrawing, if_neg hz.symm]
  eq := rfl

private theorem State.Draws.goes_dark_iff {s t : State} {p : Placement} (h : s.Draws p t)
    (r : Fin Frame.height) (c : Fin Frame.width) :
    s.frame.get r c = 1 ∧ t.frame.get r c = 0 ↔
      p.covers s.memory r c = true ∧ s.frame.get r c = 1 := by
  rw [h.get, and_comm]
  apply and_congr_left
  intro hl
  rw [hl]
  cases p.covers s.memory r c <;> decide

/-- Drawing keeps every cell dark or lit. -/
theorem State.Draws.binary {s t : State} {p : Placement} (h : s.Draws p t) (hb : s.frame.Binary) :
    t.frame.Binary := by
  intro r c
  rw [h.get]
  rcases hb r c with hl | hl <;> rw [hl] <;> cases p.covers s.memory r c <;> decide

namespace Instruction

private theorem execute_draw_of_read {s : State} {height : UInt8} {sprite : List UInt8}
    (h : s.memory.readShort s.i height = .ok sprite) (x y : Register) (keys : Keypad)
    (noise : UInt8) :
    (draw x y height).execute s keys noise =
      .ok (s.withDrawing (s.frame.draw (s.reg y).toNat (s.reg x).toNat sprite)) := by
  simp only [execute, h]
  rfl

/-- A draw instruction whose sprite lies within memory draws it. -/
theorem execute_draw {s : State} {x y : Register} {height : UInt8} (hb : s.frame.Binary)
    (hm : (s.placement x y height).Fits) (keys : Keypad) (noise : UInt8) :
    ∃ t, (draw x y height).execute s keys noise = .ok t ∧ s.Draws (s.placement x y height) t := by
  obtain ⟨sprite, hr⟩ := s.memory.exists_readShort hm.2
  have hl : sprite.length ≤ Frame.height := by
    rw [Memory.length_of_readShort hr]
    exact hm.1
  have hf := Frame.flips_draw hb hl (s.reg y).toNat (s.reg x).toNat
  refine ⟨_, execute_draw_of_read hr x y keys noise, State.draws_of_flips (hf.of_eq ?_)⟩
  intro r c
  exact (Placement.covers_of_read (p := s.placement x y height) hr r c).symm

/-- Drawing is exact, cell by cell. A draw instruction in a state whose picture is dark or lit
everywhere, with a sprite no higher than the picture and in memory, succeeds. Each cell is told by
how far it lies right of and below the position in the two registers, around the edges: within the
sprite it is flipped if its bit in memory is set, and elsewhere it stays. The flag register becomes
1 if a cell went dark and 0 if none did. The picture counts as drawn on, the program counter moves
to the next word, and nothing else changes. -/
theorem draw_flips_set_bits {s : State} {height : UInt8} (x y : Register)
    (hp : s.pc.toNat + 2 ≤ 0xFFFF) (hb : s.frame.Binary) (hh : height.toNat ≤ 32)
    (hm : s.i.toNat + height.toNat ≤ 4096) (keys : Keypad) (noise : UInt8) :
    ∃ t, (draw x y height).execute s keys noise = .ok t ∧
      (∀ r c,
        let right := colsRight (s.reg x).toNat c
        let down := rowsDown (s.reg y).toNat r
        t.frame.get r c =
          if right < 8 ∧ down < height.toNat then
            s.frame.get r c ^^^ (s.memory.bit (s.i.toNat + down) (7 - right)).toUInt8
          else s.frame.get r c) ∧
      (t.reg .flag = 1 ↔ ∃ r c, s.frame.get r c = 1 ∧ t.frame.get r c = 0) ∧
      (t.reg .flag = 0 ↔ ¬∃ r c, s.frame.get r c = 1 ∧ t.frame.get r c = 0) ∧
      t.drawn = true ∧ t.pc.toNat = s.pc.toNat + 2 ∧ (∀ z, z ≠ .flag → t.reg z = s.reg z) ∧
      t = { s with pc := t.pc, v := t.v, frame := t.frame, drawn := t.drawn } := by
  obtain ⟨t, he, hd⟩ := execute_draw (x := x) (y := y) hb ⟨hh, hm⟩ keys noise
  have hpc : t.pc = s.pc + 2 := congrArg State.pc hd.eq
  have hdrawn : t.drawn = true := congrArg State.drawn hd.eq
  have hdark : t.reg .flag = 1 ↔ ∃ r c, s.frame.get r c = 1 ∧ t.frame.get r c = 0 := by
    simp only [hd.goes_dark_iff]
    exact hd.flag_iff
  refine ⟨t, he, ?_, hdark, ?_, hdrawn, ?_, hd.reg, ?_⟩
  · intro r c right down
    rw [hd.get]
    by_cases hin : right < 8 ∧ down < height.toNat
    · rw [if_pos hin, Placement.covers_of_inside (p := s.placement x y height) hin]
      rfl
    · rw [if_neg hin, Placement.covers_of_outside (p := s.placement x y height) hin]
      exact UInt8.xor_zero
  · rw [← hdark]
    rcases hd.flag_cases with h | h <;> rw [h] <;> decide
  · rw [hpc, UInt16.toNat_add]
    change (s.pc.toNat + 2) % 65536 = _
    omega
  · rw [hpc, hdrawn]
    exact hd.eq

/-- A zero drawn near the corner, at a position that only the flag register holds, comes round both
edges, and it turns the cell at its top left dark. -/
theorem draw_flips_set_bits_of_corner :
    let s := { State.initial.setReg .flag 62 with frame := Frame.blank.set 30 62 1 }
    s.pc.toNat + 2 ≤ 0xFFFF ∧ s.frame.Binary ∧ (5 : UInt8).toNat ≤ 32 ∧
      s.i.toNat + (5 : UInt8).toNat ≤ 4096 ∧
      ∃ t, (draw .flag .flag 5).execute s .allUp 0 = .ok t ∧ t.frame.get 30 62 = 0 ∧
        t.frame.get 0 1 = 1 ∧ t.reg .flag = 1 := by
  intro s
  have hp : s.pc.toNat + 2 ≤ 0xFFFF := by decide +kernel +zetaReduce
  have hb : s.frame.Binary := Frame.binary_blank.set (.inr rfl) 30 62
  have hh : (5 : UInt8).toNat ≤ 32 := by decide
  have hm : s.i.toNat + (5 : UInt8).toNat ≤ 4096 := by decide +kernel +zetaReduce
  obtain ⟨t, he, hget, hflag, -⟩ := draw_flips_set_bits .flag .flag hp hb hh hm .allUp 0
  have hcorner : t.frame.get 30 62 = 0 := (hget 30 62).trans (by decide +kernel +zetaReduce)
  have hround : t.frame.get 0 1 = 1 := (hget 0 1).trans (by decide +kernel +zetaReduce)
  have hlit : s.frame.get 30 62 = 1 := by decide +kernel +zetaReduce
  exact ⟨hp, hb, hh, hm, t, he, hcorner, hround, hflag.mpr ⟨30, 62, hlit, hcorner⟩⟩

end Instruction

end ChipEight
