import ChipEight.Listing
import ChipEight.Text.Numeral.Reading

/-!
# Columns of listings

The lines of a listing taken apart again. Two blanks end the address, two more end the contents, and
what follows them is the entry: a mnemonic, or the directive for a single byte. The contents of a
line read back as bytes, and those of all lines as a program.
-/

namespace ChipEight

namespace Listing

/-- A text cut at the first two blanks in a row, which go to neither part. -/
def cutAtGap? : List Char → Option (List Char × List Char)
  | [] => none
  | [_] => none
  | c :: d :: rest =>
    if c = ' ' ∧ d = ' ' then some ([], rest)
    else (cutAtGap? (d :: rest)).map fun cut ↦ (c :: cut.1, cut.2)

/-- The columns of a line. -/
structure Columns where
  address : List Char
  contents : List Char
  entry : List Char
  deriving DecidableEq

/-- The columns of a line, if it has them. -/
def columns? (line : String) : Option Columns := do
  let (address, rest) ← cutAtGap? line.toList
  let (contents, rest) ← cutAtGap? rest
  return ⟨address, contents, rest.dropWhile (· = ' ')⟩

/-- The address that a line shows. -/
def address? (line : String) : Option Nat :=
  (columns? line).bind fun columns ↦ Numeral.value? 16 columns.address

/-- The bytes that a line shows. -/
def bytes? (line : String) : Option (List UInt8) :=
  (columns? line).bind fun columns ↦ Numeral.ofHexPairs? columns.contents

/-- The program that a listing shows. -/
def toRom? (lines : List String) : Option (List UInt8) := (lines.mapM bytes?).map List.flatten

/-- Whether the entry of a line is the directive for a single byte. -/
def showsByte (line : String) : Bool :=
  (columns? line).any fun columns ↦ ['D', 'B', ' '].isPrefixOf columns.entry

/-- A line shows bytes at an address. It begins with the numeral of the address and with those of
the bytes behind a gap, the two can be read back, and the entry is the directive for a single byte
if there is only one. -/
structure Shows (line : String) (address : Nat) (bytes : List UInt8) : Prop where
  numerals : ∃ rest, cutAtGap? line.toList = some ((Numeral.hex 3 address).toList, rest) ∧
    Numeral.hexPairs bytes <+: rest
  address : address? line = some address
  contents : bytes? line = some bytes
  entry : showsByte line = true ↔ bytes.length = 1

end Listing

namespace Instruction

private theorem dropWhile_mnemonic (ins : Instruction) :
    ins.mnemonic.toList.dropWhile (· = ' ') = ins.mnemonic.toList := by
  cases ins with
  | skip condition => cases condition <;> simp [mnemonic, Condition.mnemonic]
  | combine how x y => cases how <;> simp [mnemonic, Combination.name]
  | shift direction x => cases direction <;> simp [mnemonic, Shift.name]
  | _ => simp [mnemonic]

private theorem isPrefixOf_mnemonic (ins : Instruction) :
    ['D', 'B', ' '].isPrefixOf ins.mnemonic.toList = false := by
  cases ins with
  | skip condition => cases condition <;> simp [mnemonic, Condition.mnemonic, List.isPrefixOf]
  | combine how x y => cases how <;> simp [mnemonic, Combination.name, List.isPrefixOf]
  | shift direction x => cases direction <;> simp [mnemonic, Shift.name, List.isPrefixOf]
  | _ => simp [mnemonic, List.isPrefixOf]

end Instruction

namespace Listing

/-! ### Lines taken apart -/

private theorem cutAtGap?_append {column : List Char} (h : ' ' ∉ column) (rest : List Char) :
    cutAtGap? (column ++ ' ' :: ' ' :: rest) = some (column, rest) := by
  induction column with
  | nil => rfl
  | cons c column ih =>
    have hc : c ≠ ' ' := (List.ne_of_not_mem_cons h).symm
    have ih := ih (List.not_mem_of_not_mem_cons h)
    cases column with
    | nil => simp [cutAtGap?, hc]
    | cons d column =>
      change cutAtGap? (c :: d :: (column ++ ' ' :: ' ' :: rest)) = _
      rw [cutAtGap?, if_neg fun hb ↦ hc hb.1]
      exact congrArg (Option.map _) ih

variable {line : String} {address : Nat} {bytes : List UInt8} {entry : List Char}

private theorem blank_notMem_hexPairs (bytes : List UInt8) : ' ' ∉ Numeral.hexPairs bytes := by
  intro h
  obtain ⟨b, -, hb⟩ := List.mem_flatMap.mp h
  exact Numeral.notMem_padded (by decide) (by decide) rfl 2 b.toNat hb

private theorem columns?_of_toList
    (h : line.toList = Numeral.padded 3 16 address ++ ' ' :: ' ' ::
      (Numeral.hexPairs bytes ++ ' ' :: ' ' :: entry)) :
    columns? line =
      some ⟨Numeral.padded 3 16 address, Numeral.hexPairs bytes, entry.dropWhile (· = ' ')⟩ := by
  have ha : ' ' ∉ Numeral.padded 3 16 address :=
    Numeral.notMem_padded (by decide) (by decide) rfl 3 address
  rw [columns?, h, cutAtGap?_append ha]
  change (cutAtGap? (Numeral.hexPairs bytes ++ _) >>= _) = _
  rw [cutAtGap?_append (blank_notMem_hexPairs bytes)]
  rfl

private theorem shows_of_toList
    (h : line.toList = Numeral.padded 3 16 address ++ ' ' :: ' ' ::
      (Numeral.hexPairs bytes ++ ' ' :: ' ' :: entry))
    (he : ['D', 'B', ' '].isPrefixOf (entry.dropWhile (· = ' ')) = true ↔ bytes.length = 1) :
    Shows line address bytes where
  numerals := by
    have ha : ' ' ∉ Numeral.padded 3 16 address :=
      Numeral.notMem_padded (by decide) (by decide) rfl 3 address
    rw [h, cutAtGap?_append ha, Numeral.hex, String.toList_ofList]
    exact ⟨_, rfl, List.prefix_append _ _⟩
  address := by
    rw [address?, columns?_of_toList h]
    exact Numeral.value?_padded (by decide) (by decide) 3 address
  contents := by
    rw [bytes?, columns?_of_toList h]
    exact Numeral.ofHexPairs?_hexPairs bytes
  entry := by
    rw [showsByte, columns?_of_toList h]
    exact he

private theorem padded_ofBytes (high low : UInt8) :
    Numeral.padded 4 16 (Word.ofBytes high low).toNat = Numeral.hexPairs [high, low] := by
  have hh := high.toNat_lt
  have hl := low.toNat_lt
  have hd : (256 * high.toNat + low.toNat) / 16 / 16 = high.toNat := by omega
  have hs : (256 * high.toNat + low.toNat) / 16 % 16 = low.toNat / 16 := by omega
  have hu : (256 * high.toNat + low.toNat) % 16 = low.toNat % 16 := by omega
  rw [Word.toNat_ofBytes, Numeral.padded_add_two (by decide) 2,
    Numeral.padded_add_two (by decide) 1, hd, hs, hu]
  simp [Numeral.hexPairs, Numeral.padded_two_toNat]

private theorem toList_wordLine (address : Nat) (high low : UInt8) :
    (wordLine address (.ofBytes high low)).toList =
      Numeral.padded 3 16 address ++ ' ' :: ' ' ::
        (Numeral.hexPairs [high, low] ++ ' ' :: ' ' ::
          (Word.disassemble (.ofBytes high low)).toList) := by
  simp [wordLine, Numeral.hex, padded_ofBytes]

private theorem toList_byteLine (address : Nat) (b : UInt8) :
    (byteLine address b).toList =
      Numeral.padded 3 16 address ++ ' ' :: ' ' ::
        (Numeral.hexPairs [b] ++ ' ' :: ' ' :: ' ' :: ' ' :: 'D' :: 'B' :: ' ' ::
          (Numeral.hexMarked 2 b.toNat).toList) := by
  simp [byteLine, Numeral.hex, Numeral.hexPairs]

/-- The line of a word shows its two bytes. -/
theorem shows_wordLine (address : Nat) (high low : UInt8) :
    Shows (wordLine address (.ofBytes high low)) address [high, low] := by
  apply shows_of_toList (toList_wordLine address high low)
  rw [Word.disassemble, Instruction.dropWhile_mnemonic, Instruction.isPrefixOf_mnemonic]
  simp

/-- The line of a single byte shows it. -/
theorem shows_byteLine (address : Nat) (b : UInt8) : Shows (byteLine address b) address [b] := by
  apply shows_of_toList (toList_byteLine address b)
  exact iff_of_true rfl rfl

example : columns? "202  FF    DB 0xFF" =
    some ⟨['2', '0', '2'], ['F', 'F'], ['D', 'B', ' ', '0', 'x', 'F', 'F']⟩ := by decide

/-- The entry of a word's line is the mnemonic of the word. -/
theorem columns?_wordLine (address : Nat) (high low : UInt8) :
    columns? (wordLine address (.ofBytes high low)) =
      some ⟨Numeral.padded 3 16 address, Numeral.hexPairs [high, low],
        (Word.disassemble (.ofBytes high low)).toList⟩ := by
  rw [columns?_of_toList (toList_wordLine address high low), Word.disassemble,
    Instruction.dropWhile_mnemonic]

end Listing

end ChipEight
