/-!
# Arguments

The shapes of a command line argument: the separator `--`, a long option `--name` or `--name=value`,
a cluster of short options `-abc`, and plain text, which a single dash is too. Numbers are decimal
digits after an optional plus sign.
-/

namespace ChipEight.Shell

/-- One argument, by its shape. -/
inductive Argument where
  /-- The separator, after which everything is plain. -/
  | separator
  /-- A long option, with the value behind its equals sign if it has one. -/
  | long (name : String) (value : Option String)
  /-- A cluster of short options, which starts with this letter. -/
  | short (letter : Char)
  /-- Anything else. -/
  | plain (text : String)
  deriving DecidableEq

/-- A long option without its dashes, divided at the first equals sign. -/
def Argument.ofLong (cs : List Char) : Argument :=
  let name := cs.takeWhile (· != '=')
  match cs.dropWhile (· != '=') with
  | [] => .long (String.ofList name) none
  | _ :: value => .long (String.ofList name) (some (String.ofList value))

/-- The shape of an argument. -/
def Argument.ofString (text : String) : Argument :=
  match text.toList with
  | ['-', '-'] => .separator
  | '-' :: '-' :: cs => .ofLong cs
  | '-' :: letter :: _ => .short letter
  | _ => .plain text

/-- The number that digits denote, if there are digits and nothing else. -/
def digitsToNat? (cs : List Char) : Option Nat :=
  if cs.isEmpty || !cs.all Char.isDigit then none
  else some (cs.foldl (fun n c ↦ 10 * n + (c.toNat - '0'.toNat)) 0)

/-- The number that a text denotes. -/
def natural? (text : String) : Option Nat :=
  match text.toList with
  | '+' :: cs => digitsToNat? cs
  | cs => digitsToNat? cs

/-- The number that a text denotes, if it lies between two bounds. -/
def numberBetween? (least greatest : Nat) (text : String) : Option Nat :=
  (natural? text).filter fun n ↦ least ≤ n && n ≤ greatest

end ChipEight.Shell
