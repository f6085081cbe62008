import ChipEight.Listing.Columns
import ChipEight.Proofs.Machine.Stores

/-!
# Listings and execution

What a listing says of a word is what the machine makes of it. A loaded program lies in memory as it
was listed, and as long as no instruction has stored to a word of it, that word is still there:
whatever else happened, in all states of the machine, so that going back does not bring another one
back. A step that runs the word therefore answers the instruction whose mnemonic stands in its line.
-/

namespace ChipEight

/-- The line of a word of the program. -/
theorem Listing.getElem?_ofRom {rom : List UInt8} {k : Nat} (h : 2 * k + 1 < rom.length) :
    (ofRom rom)[k]? =
      some (wordLine (0x200 + 2 * k) (.ofBytes rom[2 * k] rom[2 * k + 1])) := by
  have hdrop : rom.drop (2 * k) = rom[2 * k] :: rom[2 * k + 1] :: rom.drop (2 * k + 2) := by
    rw [List.drop_eq_getElem_cons (by omega), List.drop_eq_getElem_cons h]
  rw [← List.head?_drop, ofRom, drop_linesFrom, hdrop]
  rfl

namespace Machine

private theorem holdsByte_load (m : Machine) {rom : List UInt8}
    (h : rom.length ≤ Memory.romCapacity) {j : Nat} (hj : j < rom.length) :
    (m.perform (.load rom)).2.HoldsByte (0x200 + j) rom[j] := by
  have hwindow : Memory.programStart ≤ 0x200 + j ∧ 0x200 + j < Memory.programStart + rom.length :=
    ⟨Nat.le_add_right _ _, Nat.add_lt_add_left hj _⟩
  have hs : 0x200 + j < Memory.size :=
    Nat.lt_of_lt_of_le hwindow.2 (Nat.add_le_add_left h Memory.programStart)
  intro s hm
  rw [perform, ofRom_of_length_le h] at hm
  cases List.mem_singleton.mp hm
  change (Memory.overwrite _ _ _)[0x200 + j]? = _
  rw [Vector.getElem?_eq_getElem hs, Memory.getElem_overwrite, dif_pos hwindow]
  simp

private theorem currentInstruction_of_holdsByte {m : Machine} {high low : UInt8}
    (hh : m.HoldsByte m.state.pc.toNat high) (hl : m.HoldsByte (m.state.pc.toNat + 1) low) :
    m.currentInstruction = .ok (Instruction.decode (.ofBytes high low)) := by
  have hw := Memory.readWord_of_getElem? (hh m.state List.mem_cons_self)
    (hl m.state List.mem_cons_self)
  rw [currentInstruction, State.fetch, hw]
  rfl

/-- The listing of a program shows what the machine executes. Every program that fits is loaded, and
whatever operations follow, unless they begin anew: a step that succeeds on a word of the program
answers the instruction whose mnemonic is the entry of the word's line, unless an instruction has
stored to one of its two bytes since. -/
theorem step_runs_listed (m : Machine) {rom : List UInt8} (hrom : rom.length ≤ 3584) :
    ∃ loaded, m.perform (.load rom) = (.done, loaded) ∧
      ∀ {commands : List Command} {noise : UInt8} {ins : Instruction} {k : Nat},
        (∀ e ∈ loaded.transcript commands, e.restarts = false) →
        (∀ x ∈ loaded.executions commands,
          x.storesTo (0x200 + 2 * k) = false ∧ x.storesTo (0x200 + 2 * k + 1) = false) →
        (loaded.after commands).state.pc.toNat = 0x200 + 2 * k → 2 * k + 1 < rom.length →
        ((loaded.after commands).perform (.step noise)).1 = .ran ins →
        ∃ line, (Listing.ofRom rom)[k]? = some line ∧
          (Listing.columns? line).map Listing.Columns.entry = some ins.mnemonic.toList := by
  have hdone : (m.perform (.load rom)).1 = .done := by rw [perform, ofRom_of_length_le hrom]; rfl
  refine ⟨_, Prod.ext hdone rfl, ?_⟩
  intro commands noise ins k hn hs hpc hk hstep
  have hhigh := (m.holdsByte_load hrom (show 2 * k < rom.length by omega)).after hn
    fun x hx ↦ (hs x hx).1
  have hlow := (m.holdsByte_load hrom hk).after hn fun x hx ↦ (hs x hx).2
  rw [← hpc] at hhigh
  rw [← Nat.add_assoc, ← hpc] at hlow
  have hc := currentInstruction_of_holdsByte hhigh hlow
  rcases step_cases _ noise with
    ⟨fault, -, hr⟩ | ⟨fault, -, -, hr⟩ | ⟨ran, next, -, hran, -, hr⟩
  · rw [answer_step, hr] at hstep
    cases hstep
  · rw [answer_step, hr] at hstep
    cases hstep
  · rw [answer_step, hr] at hstep
    cases hstep
    cases hran.symm.trans hc
    refine ⟨_, Listing.getElem?_ofRom hk, ?_⟩
    rw [Listing.columns?_wordLine]
    rfl

/-- A program stores to its last word, sets a register, and is taken back. The instruction that sets
the register is still the listed one. -/
theorem step_runs_listed_of_store :
    let rom : List UInt8 := [0xA2, 0x06, 0xF0, 0x55, 0x60, 0x07, 0x12, 0x00]
    let commands : List Command := [.step 0, .step 0, .tick, .step 0, .rewind]
    ∃ loaded, powerUp.perform (.load rom) = (.done, loaded) ∧
      (∃ x ∈ loaded.executions commands, x.storesTo 0x206 = true) ∧
      ((loaded.after commands).perform (.step 0)).1 = .ran (.setByte 0 7) ∧
      ∃ line, (Listing.ofRom rom)[2]? = some line ∧
        (Listing.columns? line).map Listing.Columns.entry =
          some (Instruction.setByte 0 7).mnemonic.toList := by
  intro rom commands
  obtain ⟨loaded, hl, hlisted⟩ := step_runs_listed powerUp (show rom.length ≤ 3584 by decide)
  have hloaded : loaded = (powerUp.perform (.load rom)).2 := by rw [hl]
  have hn : ∀ e ∈ (powerUp.perform (.load rom)).2.transcript commands, e.restarts = false := by
    decide +kernel +zetaReduce
  have hs : ∀ x ∈ (powerUp.perform (.load rom)).2.executions commands,
      x.storesTo (0x200 + 2 * 2) = false ∧ x.storesTo (0x200 + 2 * 2 + 1) = false := by
    decide +kernel +zetaReduce
  have hstore : ∃ x ∈ (powerUp.perform (.load rom)).2.executions commands,
      x.storesTo 0x206 = true := by decide +kernel +zetaReduce
  have hpc : ((powerUp.perform (.load rom)).2.after commands).state.pc.toNat = 0x200 + 2 * 2 := by
    decide +kernel +zetaReduce
  have hstep : (((powerUp.perform (.load rom)).2.after commands).perform (.step 0)).1 =
      .ran (.setByte 0 7) := by decide +kernel +zetaReduce
  rw [← hloaded] at hn hs hstore hpc hstep
  exact ⟨loaded, hl, hstore, hstep, hlisted hn hs hpc (by decide) hstep⟩

end Machine

end ChipEight
