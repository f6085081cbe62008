import ChipEight.Instruction.Checked
import ChipEight.Machine.Command

/-!
# Checked operation

The operations of a machine with checked execution inside. An operation has no result where a check
of it fails; its faults are results. Only steps and loads have anything to check, since the others
move whole states or look up keys whose code they test themselves.
-/

namespace ChipEight.Checked

/-- Fetch, decode and execute the instruction at the program counter, halted or not. -/
def attempt (m : Machine) (noise : UInt8) : Checked (Instruction × State) := do
  let ins := Instruction.decode (← fetch m.state)
  let next ← execute ins m.state m.keys noise
  return (ins, next)

/-- Run one instruction. -/
def step (m : Machine) (noise : UInt8) : Option (Except Fault Instruction × Machine) :=
  match m.fault with
  | some fault => some (.error (.halted fault), m)
  | none => do
    match ← (attempt m noise).run with
    | .error fault => return (.error fault, { m with fault := some fault })
    | .ok (ins, next) => return (.ok ins, m.advanceTo next)

/-- A fresh machine with a program loaded, unless the program is too long. -/
def ofRom (rom : List UInt8) : Checked Machine :=
  if Memory.romCapacity < rom.length then throw (.romTooLarge rom.length Memory.romCapacity)
  else do
    let memory ← write State.initial.memory State.initial.pc rom
    return { Machine.powerUp with state := { State.initial with memory } }

/-- Carry out one operation. -/
def perform (m : Machine) : Command → Option (Answer × Machine)
  | .load rom => do return m.settle (← (ofRom rom).run)
  | .step noise => do
    match ← step m noise with
    | (.ok ins, next) => return (.ran ins, next)
    | (.error fault, next) => return (.failed fault, next)
  | command => some (m.perform command)

/-- Carry out operations one after the other. -/
def performAll (m : Machine) : List Command → Option (List Answer × Machine)
  | [] => some ([], m)
  | c :: rest => do
    let first ← perform m c
    let others ← performAll first.2 rest
    return (first.1 :: others.1, others.2)

end ChipEight.Checked
