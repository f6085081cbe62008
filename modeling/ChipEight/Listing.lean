import ChipEight.Instruction.Mnemonic
import ChipEight.Memory

/-!
# Listings

A program as lines of address, contents and mnemonic, one line a word. Every word is listed as if it
were code, since sprites cannot be told from code by looking. A last byte without a partner is
listed as data.
-/

namespace ChipEight.Listing

/-- The line of a word. -/
def wordLine (address : Nat) (w : Word) : String :=
  Numeral.hex 3 address ++ "  " ++ Numeral.hex 4 w.toNat ++ "  " ++ w.disassemble

/-- The line of a single byte. -/
def byteLine (address : Nat) (b : UInt8) : String :=
  Numeral.hex 3 address ++ "  " ++ Numeral.hex 2 b.toNat ++ "    DB " ++ Numeral.hexMarked 2 b.toNat

/-- The lines of bytes that start at an address. -/
def linesFrom : Nat → List UInt8 → List String
  | _, [] => []
  | address, [b] => [byteLine address b]
  | address, high :: low :: rest =>
    wordLine address (.ofBytes high low) :: linesFrom (address + 2) rest

/-- The lines of a program. -/
def ofRom (rom : List UInt8) : List String := linesFrom Memory.programStart rom

/-- There is a line for every two bytes, or part of two. -/
theorem length_linesFrom (address : Nat) (bytes : List UInt8) :
    (linesFrom address bytes).length = (bytes.length + 1) / 2 := by
  induction address, bytes using linesFrom.induct with
  | case1 => rfl
  | case2 => simp [linesFrom]
  | case3 address high low rest ih =>
    simp only [linesFrom, List.length_cons, ih]
    omega

/-- The lines of a program in two parts are those of the parts, if the first part consists of whole
words. -/
theorem linesFrom_append (address : Nat) {bytes : List UInt8} (h : bytes.length % 2 = 0)
    (more : List UInt8) :
    linesFrom address (bytes ++ more) =
      linesFrom address bytes ++ linesFrom (address + bytes.length) more := by
  induction address, bytes using linesFrom.induct with
  | case1 => rfl
  | case2 => cases h
  | case3 address high low rest ih =>
    have hr : rest.length % 2 = 0 := by
      simp only [List.length_cons] at h
      omega
    have ha : address + (high :: low :: rest).length = address + 2 + rest.length := by
      simp only [List.length_cons]
      omega
    rw [ha]
    exact congrArg (wordLine address (.ofBytes high low) :: ·) (ih hr)

/-- The lines from the one with number `k` on are those of the bytes from number `2 * k` on. -/
theorem drop_linesFrom (address k : Nat) (bytes : List UInt8) :
    (linesFrom address bytes).drop k = linesFrom (address + 2 * k) (bytes.drop (2 * k)) := by
  induction k generalizing address bytes with
  | zero => rfl
  | succ k ih =>
    have ha : address + 2 * (k + 1) = address + 2 + 2 * k := by omega
    rw [ha]
    cases bytes with
    | nil => rfl
    | cons high bytes =>
      cases bytes with
      | nil => simp [linesFrom, Nat.mul_add]
      | cons low rest => exact ih (address + 2) rest

end ChipEight.Listing
