/-!
# Numerals

Positional notation as lists of characters: the digits of a number in a base, most significant
first, and the same digits padded with leading zeros to a least width. Digits past nine are capital
letters. The string forms used in messages and listings are built from these lists.
-/

namespace ChipEight.Numeral

/-- The character of one digit: `0` to `9`, then `A` upward. -/
def digitChar (d : Nat) : Char :=
  if d < 10 then Char.ofNat ('0'.toNat + d) else Char.ofNat ('A'.toNat + (d - 10))

/-- The digits of `n` in `base`, most significant first; zero has one digit. -/
def digits (base n : Nat) : List Char :=
  if 1 < base ∧ base ≤ n then digits base (n / base) ++ [digitChar (n % base)]
  else [digitChar n]
termination_by n
decreasing_by exact Nat.div_lt_self (by omega) (by omega)

/-- The digits of `n` in `base`, with leading zeros up to `width` characters. -/
def padded (width base n : Nat) : List Char :=
  List.replicate (width - (digits base n).length) '0' ++ digits base n

/-- The decimal numeral of `n`. -/
def decimal (n : Nat) : String := String.ofList (digits 10 n)

/-- The hexadecimal numeral of `n`, at least `width` digits long. -/
def hex (width n : Nat) : String := String.ofList (padded width 16 n)

/-- The hexadecimal numeral of `n` behind the mark `0x`, at least `width` digits long. -/
def hexMarked (width n : Nat) : String := "0x" ++ hex width n

/-- The hexadecimal numeral of `n` in small letters, without padding. -/
def hexSmall (n : Nat) : String := String.ofList ((digits 16 n).map Char.toLower)

/-- A number below the base is its own digit. -/
theorem digits_of_lt {base n : Nat} (h : n < base) : digits base n = [digitChar n] := by
  rw [digits, if_neg (by omega)]

/-- A number from the base up ends in its remainder. -/
theorem digits_of_le {base n : Nat} (hb : 1 < base) (h : base ≤ n) :
    digits base n = digits base (n / base) ++ [digitChar (n % base)] := by
  rw [digits, if_pos ⟨hb, h⟩]

/-- A numeral without padding has its own digits. -/
theorem padded_zero (base n : Nat) : padded 0 base n = digits base n := by
  rw [padded, Nat.zero_sub, List.replicate_zero, List.nil_append]

end ChipEight.Numeral
