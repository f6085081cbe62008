import ChipEight.Fault
import ChipEight.Text.Numeral.Reading
import Mathlib.Logic.Function.Iterate

/-!
# Messages of faults

What the message of a fault tells of it. A message is a sentence whose numbers are words of their
own, up to a bracket or a mark. The words tell which fault it reports, and the complaint of a halted
machine has three words before those of what it quotes. So every fault is read back from its
message, however deep it is quoted, and no two faults have the same message.
-/

namespace ChipEight.Fault

/-- The words of a text, which is cut at every blank. -/
def words (text : String) : List String := (text.toList.splitOn ' ').map String.ofList

/-- The fault that words report. -/
def ofWords? : List String → Option Fault
  | ["ROM", "is", "too", "large", size, "bytes),", "max", "size", "is", capacity, "bytes"] => do
    let size ← Numeral.shown? 10 size
    let capacity ← Numeral.shown? 10 capacity
    return .romTooLarge size capacity
  | ["memory", "access", "out", "of", "bounds", "at", "address", address] =>
    (Numeral.shown? 16 address).map .memoryOutOfBounds
  | ["stack", "overflow:", "more", "than", depth, "nested", "subroutine", "calls"] =>
    (Numeral.shown? 10 depth).map .stackOverflow
  | ["stack", "underflow:", "returned", "from", "a", "subroutine", "with", "an", "empty", "call",
      "stack"] => some .stackUnderflow
  | ["key", code, "is", "not", "on", "the", "keypad", "(expected", "0x0..=0xF)"] =>
    (Numeral.shown? 16 code).map fun code ↦ .invalidKey (.ofNat code)
  | "machine" :: "is" :: "halted:" :: cause => (ofWords? cause).map .halted
  | _ => none

/-- The fault that a text reports. -/
def read? (text : String) : Option Fault := ofWords? (words text)

/-! ### Words -/

private theorem words_append (a b : String) : words (a ++ " " ++ b) = words a ++ words b := by
  have hblank : (a ++ " " ++ b).toList = a.toList ++ ' ' :: b.toList := by simp
  rw [words, hblank, List.splitOn, List.splitOnP_append_cons _ _ (by rfl), List.map_append]
  rfl

private theorem read?_of_toList {first : String} {more : List String} {text : String}
    (hs : ∀ word ∈ first :: more, ' ' ∉ word.toList)
    (h : text.toList = [' '].intercalate ((first :: more).map String.toList)) :
    read? text = ofWords? (first :: more) := by
  have hblank : ∀ word ∈ (first :: more).map String.toList, ' ' ∉ word := by
    intro word hw
    obtain ⟨said, hm, rfl⟩ := List.mem_map.mp hw
    exact hs said hm
  have hwords : words text = first :: more := by
    rw [words, h, List.splitOn_intercalate _ hblank (List.cons_ne_nil _ _), List.map_map]
    simp
  rw [read?, hwords]

/-! ### Faults read back -/

private theorem read?_quoted (text : String) :
    read? ("machine is halted: " ++ text) = (read? text).map halted := by
  have hquote : "machine is halted: " ++ text = "machine is halted:" ++ " " ++ text := by
    rw [← String.toList_inj]
    simp
  have hwords : words "machine is halted:" = ["machine", "is", "halted:"] := by decide
  rw [read?, hquote, words_append, hwords]
  rfl

/-- Every fault is read back from its message. -/
theorem read?_message (fault : Fault) : read? fault.message = some fault := by
  have hblank : Numeral.digitValue? ' ' = none := rfl
  induction fault with
  | romTooLarge size capacity =>
    calc
      read? (romTooLarge size capacity).message
      _ = ofWords? ["ROM", "is", "too", "large", "(" ++ Numeral.decimal size, "bytes),", "max",
            "size", "is", Numeral.decimal capacity, "bytes"] := by
        apply read?_of_toList
        · simp [Numeral.notMem_decimal hblank]
        · change ("ROM is too large (" ++ _ ++ _ ++ _ ++ _ : String).toList = _
          simp [List.intercalate]
      _ = (do
            let size ← Numeral.shown? 10 ("(" ++ Numeral.decimal size)
            let capacity ← Numeral.shown? 10 (Numeral.decimal capacity)
            return romTooLarge size capacity) := rfl
      _ = some (romTooLarge size capacity) := by
        -- The bracket is part of the word, but no digit of the size.
        rw [Numeral.shown?_append_decimal "(" (by decide), Numeral.shown?_decimal]
        rfl
  | memoryOutOfBounds address =>
    calc
      read? (memoryOutOfBounds address).message
      _ = ofWords? ["memory", "access", "out", "of", "bounds", "at", "address",
            Numeral.hexMarked 4 address] := by
        apply read?_of_toList
        · simp [Numeral.notMem_hexMarked hblank]
        · change ("memory access out of bounds at address " ++ _ : String).toList = _
          simp [List.intercalate]
      _ = (Numeral.shown? 16 (Numeral.hexMarked 4 address)).map memoryOutOfBounds := rfl
      _ = some (memoryOutOfBounds address) := by rw [Numeral.shown?_hexMarked, Option.map_some]
  | stackOverflow depth =>
    calc
      read? (stackOverflow depth).message
      _ = ofWords? ["stack", "overflow:", "more", "than", Numeral.decimal depth, "nested",
            "subroutine", "calls"] := by
        apply read?_of_toList
        · simp [Numeral.notMem_decimal hblank]
        · change ("stack overflow: more than " ++ _ ++ _ : String).toList = _
          simp [List.intercalate]
      _ = (Numeral.shown? 10 (Numeral.decimal depth)).map stackOverflow := rfl
      _ = some (stackOverflow depth) := by rw [Numeral.shown?_decimal, Option.map_some]
  | stackUnderflow => decide
  | invalidKey code =>
    calc
      read? (invalidKey code).message
      _ = ofWords? ["key", Numeral.hexMarked 2 code.toNat, "is", "not", "on", "the", "keypad",
            "(expected", "0x0..=0xF)"] := by
        apply read?_of_toList
        · simp [Numeral.notMem_hexMarked hblank]
        · change ("key " ++ _ ++ _ : String).toList = _
          simp [List.intercalate]
      _ = (Numeral.shown? 16 (Numeral.hexMarked 2 code.toNat)).map
            fun code ↦ invalidKey (.ofNat code) := rfl
      _ = some (invalidKey code) := by
        rw [Numeral.shown?_hexMarked, Option.map_some, UInt8.ofNat_toNat]
  | halted cause ih =>
    -- Only here a message contains another one, whose words come last and are read on their own.
    rw [message_halted, read?_quoted, ih, Option.map_some]

example : read? "machine is halted: key 0x1F is not on the keypad (expected 0x0..=0xF)" =
    some (.halted (.invalidKey 0x1F)) := by decide

/-- Different faults have different messages. -/
theorem message_inj {f g : Fault} : f.message = g.message ↔ f = g := by
  refine ⟨fun h ↦ ?_, congrArg message⟩
  have hread := congrArg read? h
  rw [read?_message, read?_message] at hread
  exact Option.some.inj hread

/-- A fault that is quoted again and again has its own message behind one prefix for each time. -/
theorem message_iterate_halted (fault : Fault) (depth : Nat) :
    (halted^[depth] fault).message =
      String.join (List.replicate depth "machine is halted: ") ++ fault.message := by
  induction depth with
  | zero => simp
  | succ depth ih =>
    rw [Function.iterate_succ_apply', message_halted, ih, List.replicate_succ, String.join_cons,
      String.append_assoc]

/-- The messages of faults are unambiguous. Two faults have the same message exactly if they are the
same, whatever their numbers are and however deep they are quoted, and a fault that is quoted again
and again has its own message behind one prefix for each time. -/
theorem message_unambiguous (f g : Fault) (depth : Nat) :
    (f.message = g.message ↔ f = g) ∧
    (halted^[depth] f).message =
      String.join (List.replicate depth "machine is halted: ") ++ f.message :=
  ⟨message_inj, message_iterate_halted f depth⟩

end ChipEight.Fault
