import ChipEight.Host
import ChipEight.Shell.Argument

/-!
# Requests

What a command line asks for. Arguments are read from left to right, and the first that cannot be
read spoils the whole line; a call for help or for the version takes effect where it stands. Options
may stand before or after the program file, each at most once.
-/

namespace ChipEight.Shell

/-- How to run a program. -/
structure RunSettings where
  rom : String
  pace : Host.Pace := {}
  cycles : Nat := 10000
  realtime : Bool := false
  hold : String := ""
  rewind : Nat := 0

/-- What a command line asks for. -/
inductive Request where
  | run (settings : RunSettings)
  | list (rom : String)
  | version
  | help

/-- The options of a run that have a value. -/
inductive RunOption where
  | clockSpeed
  | timerRate
  | cycles
  | hold
  | rewind

/-- The option with a name. -/
def RunOption.ofName? : String → Option RunOption
  | "clock-speed" => some .clockSpeed
  | "timer-rate" => some .timerRate
  | "cycles" => some .cycles
  | "hold" => some .hold
  | "rewind" => some .rewind
  | _ => none

/-- What has been read of a run so far. -/
structure RunDraft where
  rom : Option String := none
  clockSpeed : Option Nat := none
  timerRate : Option Nat := none
  cycles : Option Nat := none
  realtime : Bool := false
  hold : Option String := none
  rewind : Option Nat := none

/-- Fill an empty place; a place is filled only once. -/
def fillOnce {α : Type} (place value : Option α) : Option (Option α) :=
  if place.isSome then none else value.map some

/-- The number of instructions or ticks per second that a text gives. -/
def rate? (text : String) : Option Nat := numberBetween? 1 0xFFFFFFFF text

/-- The number of instructions that a text gives. -/
def count? (text : String) : Option Nat := numberBetween? 0 0xFFFFFFFFFFFFFFFF text

/-- The path that a text gives, which is never empty. -/
def path? (text : String) : Option String := if text.isEmpty then none else some text

namespace RunDraft

/-- The draft with the value of an option. -/
def assign (d : RunDraft) (option : RunOption) (value : String) : Option RunDraft :=
  match option with
  | .clockSpeed => (fillOnce d.clockSpeed (rate? value)).map ({ d with clockSpeed := · })
  | .timerRate => (fillOnce d.timerRate (rate? value)).map ({ d with timerRate := · })
  | .cycles => (fillOnce d.cycles (count? value)).map ({ d with cycles := · })
  | .hold => (fillOnce d.hold (some value)).map ({ d with hold := · })
  | .rewind => (fillOnce d.rewind (count? value)).map ({ d with rewind := · })

/-- The draft with its program file. -/
def addPath (d : RunDraft) (text : String) : Option RunDraft :=
  (fillOnce d.rom (path? text)).map ({ d with rom := · })

/-- The draft as a request, with the usual settings where nothing else was said. -/
def finish (d : RunDraft) : Option Request :=
  d.rom.map fun rom ↦
    let usual : RunSettings := { rom }
    .run {
      rom
      pace := {
        clockSpeed := d.clockSpeed.getD usual.pace.clockSpeed
        timerRate := d.timerRate.getD usual.pace.timerRate }
      cycles := d.cycles.getD usual.cycles
      realtime := d.realtime
      hold := d.hold.getD usual.hold
      rewind := d.rewind.getD usual.rewind }

/-- Read the rest of a run from its arguments. -/
def read (d : RunDraft) : List String → Option Request
  | [] => d.finish
  | arg :: rest =>
    match Argument.ofString arg with
    | .separator => (rest.foldlM addPath d).bind finish
    | .plain text => (d.addPath text).bind fun d ↦ d.read rest
    | .short letter => if letter = 'h' then some .help else none
    | .long "help" none => some .help
    | .long "realtime" none =>
      if d.realtime then none else { d with realtime := true }.read rest
    | .long name (some value) =>
      ((RunOption.ofName? name).bind (d.assign · value)).bind fun d ↦ d.read rest
    | .long name none =>
      match rest with
      | [] => none
      | next :: rest =>
        match Argument.ofString next with
        | .plain value =>
          ((RunOption.ofName? name).bind (d.assign · value)).bind fun d ↦ d.read rest
        | _ => none

end RunDraft

/-- Read the rest of a listing from its arguments, of which the program file is the only one. -/
def readList (rom : Option String) : List String → Option Request
  | [] => rom.map .list
  | arg :: rest =>
    match Argument.ofString arg with
    | .separator =>
      (rest.foldlM (fun rom text ↦ fillOnce rom (path? text)) rom).bind fun rom ↦ rom.map .list
    | .plain text => (fillOnce rom (path? text)).bind fun rom ↦ readList rom rest
    | .short letter => if letter = 'h' then some .help else none
    | .long "help" none => some .help
    | .long _ _ => none

/-- The request that a command line makes, if it makes sense. -/
def Request.ofArguments? : List String → Option Request
  | [] => none
  | "run" :: rest => RunDraft.read {} rest
  | "disasm" :: rest => readList none rest
  | ["help"] => some .help
  | ["help", topic] => if topic ∈ ["run", "disasm", "help"] then some .help else none
  | arg :: _ =>
    match Argument.ofString arg with
    | .short 'V' => some .version
    | .short 'h' => some .help
    | .long "version" none => some .version
    | .long "help" none => some .help
    | _ => none

end ChipEight.Shell
