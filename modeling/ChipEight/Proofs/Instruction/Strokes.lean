import ChipEight.Proofs.Instruction.Draw

/-!
# Drawings over drawings

Strokes on one picture commute and cancel. Each flips the cells that its sprite covers, so in the
end a cell is flipped if an odd number of them cover it, in whatever order they came. Only the flag
tells the strokes of a pair apart: each covered cell is lit before exactly one of them.
-/

namespace ChipEight

open ChipEight.Frame (wrapRow wrapCol)

/-- A draw instruction with all that it runs in, but for memory and the picture. -/
structure Stroke where
  x : Register
  y : Register
  height : UInt8
  state : State
  keys : Keypad
  noise : UInt8

namespace Stroke

/-- Where a stroke puts its sprite. -/
def placement (a : Stroke) : Placement := a.state.placement a.x a.y a.height

/-- The state in which a stroke runs on a picture. -/
def stateOn (a : Stroke) (m : Memory) (f : Frame) : State :=
  { a.state with memory := m, frame := f }

/-- Run the instruction on a picture. -/
def perform (a : Stroke) (m : Memory) (f : Frame) : Except Fault State :=
  (Instruction.draw a.x a.y a.height).execute (a.stateOn m f) a.keys a.noise

/-- The picture after strokes one over the other, each with the memory that the last one left. -/
def paint (m : Memory) (f : Frame) : List Stroke → Except Fault Frame
  | [] => .ok f
  | a :: rest => do
    let t ← a.perform m f
    paint t.memory t.frame rest

/-- How many strokes cover a cell. -/
def coverCount (m : Memory) (strokes : List Stroke) (r : Fin Frame.height) (c : Fin Frame.width) :
    Nat :=
  strokes.countP fun a ↦ a.placement.covers m r c

/-- A state that a stroke on a picture leads to: the cells that the sprite covers are flipped,
memory is kept, and the flag tells whether one of those cells was lit. -/
structure Paints (a : Stroke) (m : Memory) (f : Frame) (t : State) : Prop where
  memory : t.memory = m
  binary : t.frame.Binary
  get : ∀ r c, t.frame.get r c = f.get r c ^^^ (a.placement.covers m r c).toUInt8
  flag_iff : t.reg .flag = 1 ↔ ∃ r c, a.placement.covers m r c = true ∧ f.get r c = 1

/-- A stroke whose sprite lies within memory paints it. -/
theorem exists_perform {a : Stroke} (h : a.placement.Fits) (m : Memory) {f : Frame}
    (hf : f.Binary) : ∃ t, a.perform m f = .ok t ∧ a.Paints m f t := by
  obtain ⟨t, ht, hd⟩ :=
    Instruction.execute_draw (s := a.stateOn m f) (x := a.x) (y := a.y) hf h a.keys a.noise
  exact ⟨t, ht, congrArg State.memory hd.eq, hd.binary hf, hd.get, hd.flag_iff⟩

private theorem flip_flip (covered : Bool) (count : Nat) :
    covered.toUInt8 ^^^ (decide (count % 2 = 1)).toUInt8 =
      (decide ((count + if covered then 1 else 0) % 2 = 1)).toUInt8 := by
  cases covered with
  | false => exact UInt8.zero_xor
  | true =>
    rw [if_pos rfl]
    rcases Nat.mod_two_eq_zero_or_one count with h | h
    · have hs : (count + 1) % 2 = 1 := by omega
      rw [h, hs]
      rfl
    · have hs : (count + 1) % 2 = 0 := by omega
      rw [h, hs]
      rfl

/-- Strokes flip the cells that an odd number of them cover. -/
theorem exists_paint {strokes : List Stroke} (h : ∀ a ∈ strokes, a.placement.Fits) (m : Memory)
    {f : Frame} (hf : f.Binary) :
    ∃ g, paint m f strokes = .ok g ∧
      ∀ r c, g.get r c = f.get r c ^^^ (decide (coverCount m strokes r c % 2 = 1)).toUInt8 := by
  induction strokes generalizing f with
  | nil => exact ⟨f, rfl, fun r c ↦ UInt8.xor_zero.symm⟩
  | cons a rest ih =>
    obtain ⟨hfits, hrest⟩ := List.forall_mem_cons.mp h
    obtain ⟨t, ht, hfirst⟩ := exists_perform hfits m hf
    obtain ⟨g, hg, hget⟩ := ih hrest hfirst.binary
    refine ⟨g, ?_, ?_⟩
    · rw [paint, ht]
      change paint t.memory t.frame rest = _
      rw [hfirst.memory]
      exact hg
    · intro r c
      rw [hget, hfirst.get, UInt8.xor_assoc, flip_flip, coverCount, coverCount, List.countP_cons]

/-- Strokes in another order paint the same picture. -/
theorem paint_perm {strokes shuffled : List Stroke} (hp : strokes.Perm shuffled)
    (h : ∀ a ∈ strokes, a.placement.Fits) (m : Memory) {f : Frame} (hf : f.Binary) :
    ∃ g, paint m f strokes = .ok g ∧ paint m f shuffled = .ok g := by
  obtain ⟨g, hg, hget⟩ := exists_paint h m hf
  obtain ⟨g', hg', hget'⟩ := exists_paint (fun a ha ↦ h a (hp.mem_iff.mpr ha)) m hf
  have he : g' = g := Frame.ext_get fun r c ↦ by
    rw [hget, hget', coverCount, coverCount, hp.countP_eq]
  rw [he] at hg'
  exact ⟨g, hg, hg'⟩

/-- Strokes and then the same ones again, in any order, leave the picture as it was. -/
theorem paint_append_perm {strokes shuffled : List Stroke} (hp : strokes.Perm shuffled)
    (h : ∀ a ∈ strokes, a.placement.Fits) (m : Memory) {f : Frame} (hf : f.Binary) :
    paint m f (strokes ++ shuffled) = .ok f := by
  have hall : ∀ a ∈ strokes ++ shuffled, a.placement.Fits := by
    intro a ha
    rcases List.mem_append.mp ha with ha | ha
    · exact h a ha
    · exact h a (hp.mem_iff.mpr ha)
  obtain ⟨g, hg, hget⟩ := exists_paint hall m hf
  have he : g = f := Frame.ext_get fun r c ↦ by
    -- Each stroke is there twice, so no cell is covered an odd number of times.
    have heven : coverCount m (strokes ++ shuffled) r c % 2 ≠ 1 := by
      rw [coverCount, List.countP_append, hp.countP_eq]
      omega
    rw [hget, decide_eq_false heven]
    exact UInt8.xor_zero
  rw [hg, he]

private theorem exists_perform_twice {first second : Stroke} (h : first.placement.Fits)
    (hs : second.placement = first.placement) (m : Memory) {f : Frame} (hf : f.Binary) :
    ∃ t u, first.perform m f = .ok t ∧ second.perform t.memory t.frame = .ok u ∧
      (t.reg .flag = 1 ↔ ∃ r c, first.placement.covers m r c = true ∧ f.get r c = 1) ∧
      (u.reg .flag = 1 ↔ ∃ r c, first.placement.covers m r c = true ∧ f.get r c = 0) := by
  obtain ⟨t, ht, hone⟩ := exists_perform h m hf
  have hfits : second.placement.Fits := hs ▸ h
  obtain ⟨u, hu, htwo⟩ := exists_perform hfits m hone.binary
  refine ⟨t, u, ht, by rw [hone.memory]; exact hu, hone.flag_iff, htwo.flag_iff.trans ?_⟩
  rw [hs]
  apply exists_congr
  intro r
  apply exists_congr
  intro c
  apply and_congr_right
  intro hc
  -- A covered cell is lit after the first stroke exactly if it was dark before.
  rw [hone.get, hc]
  rcases hf r c with hl | hl <;> rw [hl] <;> decide

/-- Strokes commute and cancel. On a picture whose cells are dark or lit, strokes whose sprites are
no higher than it and within memory paint the same picture in any order, and followed by the same
strokes in any order they restore it. When two strokes at one place follow each other, one of them
or both tell of a collision exactly if a row of the sprite is not empty, and the second does exactly
if a set bit of the sprite falls on a cell that was dark at first. -/
theorem paint_commutes_and_cancels (m : Memory) {f : Frame} {strokes shuffled : List Stroke}
    {first second : Stroke} (hf : f.Binary) (hp : strokes.Perm shuffled)
    (hfits : ∀ a ∈ strokes, a.placement.Fits) (hfirst : first.placement.Fits)
    (hsecond : second.placement = first.placement) :
    (∃ g, paint m f strokes = .ok g ∧ paint m f shuffled = .ok g) ∧
      paint m f (strokes ++ shuffled) = .ok f ∧
      ∃ t u, first.perform m f = .ok t ∧ second.perform t.memory t.frame = .ok u ∧
        let p := first.placement
        (t.reg .flag = 1 ∨ u.reg .flag = 1 ↔
          ∃ k < p.height.toNat, ∃ bits, m.bytes[p.index.toNat + k]? = some bits ∧ bits ≠ 0) ∧
        (u.reg .flag = 1 ↔
          ∃ k < p.height.toNat, ∃ j < 8, m.bit (p.index.toNat + k) (7 - j) = true ∧
            f.get (wrapRow (p.row.toNat + k)) (wrapCol (p.col.toNat + j)) = 0) := by
  refine ⟨paint_perm hp hfits m hf, paint_append_perm hp hfits m hf, ?_⟩
  obtain ⟨t, u, ht, hu, hlit, hdark⟩ := exists_perform_twice hfirst hsecond m hf
  -- Whatever a covered cell was at first, one of the two strokes finds it lit.
  have hany : t.reg .flag = 1 ∨ u.reg .flag = 1 ↔
      ∃ r c, first.placement.covers m r c = true := by
    rw [hlit, hdark]
    constructor
    · rintro (⟨r, c, hc, -⟩ | ⟨r, c, hc, -⟩)
      · exact ⟨r, c, hc⟩
      · exact ⟨r, c, hc⟩
    · rintro ⟨r, c, hc⟩
      rcases hf r c with hl | hl
      · exact .inr ⟨r, c, hc, hl⟩
      · exact .inl ⟨r, c, hc, hl⟩
  exact ⟨t, u, ht, hu, hany.trans (Placement.exists_covers_iff_ne_zero hfirst.1 m),
    hdark.trans (Placement.exists_covers_iff hfirst.1 m _)⟩

/-- A zero and an eight near the corner overlap around the edges, and the zero is drawn twice from
different registers. -/
theorem paint_commutes_and_cancels_of_digits :
    let f := Frame.blank.set 31 63 1
    let zero : Stroke := ⟨0, 1, 5, (State.initial.setReg 0 62).setReg 1 30, .allUp, 0⟩
    let again : Stroke := ⟨1, 0, 5, (State.initial.setReg 0 30).setReg 1 62, .allUp, 0⟩
    let eight : Stroke := ⟨15, 15, 5, { State.initial.setReg 15 63 with i := 40 }, .allUp, 0⟩
    f.Binary ∧ [zero, eight].Perm [eight, zero] ∧ (∀ a ∈ [zero, eight], a.placement.Fits) ∧
      again.placement = zero.placement ∧
      (∃ g, paint .initial f [zero, eight] = .ok g ∧ paint .initial f [eight, zero] = .ok g) ∧
      paint .initial f ([zero, eight] ++ [eight, zero]) = .ok f ∧
      ∃ t u, zero.perform .initial f = .ok t ∧ again.perform t.memory t.frame = .ok u ∧
        u.reg .flag = 1 := by
  intro f zero again eight
  have hf : f.Binary := Frame.binary_blank.set (.inr rfl) 31 63
  have hp : [zero, eight].Perm [eight, zero] := .swap eight zero []
  have hz : zero.placement.Fits := by decide +kernel +zetaReduce
  have he : eight.placement.Fits := by decide +kernel +zetaReduce
  have hfits : ∀ a ∈ [zero, eight], a.placement.Fits :=
    List.forall_mem_cons.mpr ⟨hz, List.forall_mem_singleton.mpr he⟩
  have hs : again.placement = zero.placement := by decide +kernel +zetaReduce
  obtain ⟨hany, hback, t, u, ht, hu, -, hdark⟩ :=
    paint_commutes_and_cancels .initial hf hp hfits hz hs
  have hcorner : Memory.initial.bit (zero.placement.index.toNat + 0) (7 - 0) = true ∧
      f.get (wrapRow (zero.placement.row.toNat + 0))
        (wrapCol (zero.placement.col.toNat + 0)) = 0 := by
    decide +kernel +zetaReduce
  have hlater : u.reg .flag = 1 := hdark.mpr ⟨0, by decide, 0, by decide, hcorner⟩
  exact ⟨hf, hp, hfits, hs, hany, hback, t, u, ht, hu, hlater⟩

end Stroke

end ChipEight
