import ChipEight.Instruction.Encode
import ChipEight.Instruction.Mnemonic.Reading
import ChipEight.Proofs.Instruction.Checked

/-!
# Disassembly

What the disassembly of a word tells of it. Mnemonics tell instructions apart, and a word can be put
together again from its instruction, except for the third nibble of a shift. So words have the same
mnemonic exactly if they stand for the same instruction, and that is so only for a word and itself
and for two words that shift the same register in the same direction. Operands are fields of the
word.
-/

namespace ChipEight

open Instruction

/-- The registers that a condition looks at. -/
def Condition.registers : Condition → List Register
  | .byteEq x _ | .byteNe x _ | .keyDown x | .keyUp x => [x]
  | .regEq x y | .regNe x y => [x, y]

/-- The register operands of an instruction. -/
def Instruction.registers : Instruction → List Register
  | .skip condition => condition.registers
  | .setByte x _ | .addByte x _ | .random x _ | .shift _ x => [x]
  | .combine _ x y | .draw x y _ => [x, y]
  | .getDelay x | .awaitKey x | .setDelay x | .setSound x => [x]
  | .addIndex x | .indexDigit x | .storeDecimal x | .storeRegs x | .loadRegs x => [x]
  | _ => []

namespace Word

/-- Two words that shift the same register in the same direction: both of the form `8xy6`, or both
of the form `8xyE`. -/
inductive ShiftsAlike : Word → Word → Prop where
  | right (x y z : Fin 16) : ShiftsAlike (ofNibbles 0x8 x y 0x6) (ofNibbles 0x8 x z 0x6)
  | left (x y z : Fin 16) : ShiftsAlike (ofNibbles 0x8 x y 0xE) (ofNibbles 0x8 x z 0xE)

variable {a b w : Word}

/-- Words stand for the same instruction only if they are the same or shift alike. -/
theorem decode_eq_iff : decode a = decode b ↔ a = b ∨ a.ShiftsAlike b := by
  constructor
  · intro h
    by_cases hs : ∃ direction x, decode a = .shift direction x
    · obtain ⟨direction, x, hd⟩ := hs
      have ha := encode_decode a
      have hb := encode_decode b
      rw [hd] at ha
      rw [← h, hd] at hb
      rw [← ha, ← hb]
      cases direction with
      | right => exact .inr (.right x a.y b.y)
      | left => exact .inr (.left x a.y b.y)
    · refine .inl ?_
      calc
        a = (decode a).encode a.y := (encode_decode a).symm
        _ = (decode a).encode b.y :=
          encode_eq_of_ne_shift (fun direction x hd ↦ hs ⟨direction, x, hd⟩) a.y b.y
        _ = (decode b).encode b.y := by rw [h]
        _ = b := encode_decode b
  · rintro (rfl | h)
    · rfl
    · cases h with
      | right x y z =>
        exact (decode_encode_shift .right x y).trans (decode_encode_shift .right x z).symm
      | left x y z =>
        exact (decode_encode_shift .left x y).trans (decode_encode_shift .left x z).symm

private theorem registers_decodeArithmetic {r : Register} (h : r ∈ (decodeArithmetic w).registers) :
    r = w.x ∨ r = w.y := by
  unfold decodeArithmetic at h
  split at h
  all_goals simp_all [registers]

private theorem registers_decodeMisc {r : Register} (h : r ∈ (decodeMisc w).registers) :
    r = w.x ∨ r = w.y := by
  unfold decodeMisc at h
  split at h
  all_goals simp_all [registers]

/-- The register operands of a word are its second or third nibble. -/
theorem registers_decode {r : Register} (h : r ∈ (decode w).registers) : r = w.x ∨ r = w.y := by
  unfold decode at h
  split at h
  case h_9 => exact registers_decodeArithmetic h
  case h_16 => exact registers_decodeMisc h
  all_goals
    repeat' split at h
    all_goals simp_all [registers, Condition.registers]

/-- Disassembly is faithful. Words disassemble alike exactly if they stand for the same instruction,
and that is so exactly if they are the same or shift the same register in the same direction. Then
they have the same result, a state or a fault, in every state with room for the next two words and
with every key, and no check fails on the way. Register operands are below 16, addresses below
4096. -/
theorem disassembly_faithful (a b : Word) :
    (a.disassemble = b.disassemble ↔ decode a = decode b) ∧
    (decode a = decode b ↔ a = b ∨ a.ShiftsAlike b) ∧
    (a = b ∨ a.ShiftsAlike b → ∀ s : State, s.pc.toNat ≤ 0xFFFB → ∀ keys noise,
      ∃ result, ∀ w ∈ [a, b], (decode w).execute s keys noise = result ∧
        (Checked.execute (decode w) s keys noise).run = some result) ∧
    (∀ r ∈ (decode a).registers,
      r.val < 16 ∧ (r.val = a.toNat / 256 % 16 ∨ r.val = a.toNat / 16 % 16)) ∧
    (∀ address, (decode a).address? = some address →
      address.toNat < 4096 ∧ address.toNat = a.toNat % 4096) := by
  refine ⟨Mnemonic.mnemonic_inj, decode_eq_iff, ?_, ?_, ?_⟩
  · intro h s hp keys noise
    have hsame : decode b = decode a := (decode_eq_iff.mpr h).symm
    have hchecked : (Checked.execute (decode a) s keys noise).run =
        some ((decode a).execute s keys noise) :=
      Checked.run_execute keys noise (by change s.pc.toNat + 4 < 65536; omega)
        fun _ ↦ toNat_address_lt_of_decode
    refine ⟨(decode a).execute s keys noise, ?_⟩
    have hword : ∀ w ∈ [a, b], decode w = decode a := by simp [hsame]
    intro w hw
    rw [hword w hw]
    exact ⟨rfl, hchecked⟩
  · intro r hr
    exact ⟨r.isLt, (registers_decode hr).imp (congrArg Fin.val) (congrArg Fin.val)⟩
  · intro address h
    have hfield : address.toNat = a.toNat % 4096 := by
      rw [eq_address_of_decode h, Word.address, UInt16.toNat_ofNat']
      omega
    exact ⟨toNat_address_lt_of_decode h, hfield⟩

end Word

end ChipEight
