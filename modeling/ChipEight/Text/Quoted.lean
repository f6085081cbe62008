import ChipEight.Text.Charset.Combining
import ChipEight.Text.Charset.Unassigned
import ChipEight.Text.Numeral

/-!
# Quoted characters

A character as a message shows it: between single quotes and as itself, unless it would not be seen
or would be mistaken. The quote, the backslash and four controls have escapes of two characters;
everything else that is invisible, combining or unassigned is named by its code point.
-/

namespace ChipEight.Quoted

/-- Whether a character is shown by its code point, when no shorter escape exists. -/
def isHidden (c : Char) : Bool :=
  Charset.combining.contains c || Charset.invisible.contains c || Charset.unassigned.contains c

/-- The letter that follows the backslash in the short escape of a character, where it has one. -/
def shortEscape? (c : Char) : Option Char :=
  if c = '\x00' then some '0'
  else if c = '\t' then some 't'
  else if c = '\r' then some 'r'
  else if c = '\n' then some 'n'
  else if c = '\x27' ∨ c = '\x5c' then some c
  else none

/-- A character with its escape, without quotes. -/
def escape (c : Char) : String :=
  match shortEscape? c with
  | some letter => "\x5c" ++ letter.toString
  | none =>
    if isHidden c then "\x5cu\x7b" ++ Numeral.hexSmall c.toNat ++ "\x7d" else c.toString

/-- A character between single quotes. -/
def quote (c : Char) : String := "\x27" ++ escape c ++ "\x27"

end ChipEight.Quoted
