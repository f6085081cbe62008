import ChipEight.Frame.Text
import ChipEight.Keypad.Keyboard
import ChipEight.Listing
import ChipEight.Shell.Request

/-!
# Outcomes

What a request answers: an exit code and two texts. A run reads its program, then its held keys,
then loads, runs, steps back and shows the picture; the first of these to fail decides the outcome,
except that a program that faults has its picture shown first.
-/

namespace ChipEight.Shell

/-- What a finished command leaves behind. -/
structure Outcome where
  code : UInt8
  out : String
  err : String
  deriving DecidableEq

/-- Why a file could not be read. -/
inductive ReadFailure where
  | notFound
  | notDirectory
  | isDirectory
  | nameTooLong
  | linkLoop
  | denied
  | unanswered
  | noDevice
  | unsuited
  | other (description : String)

/-- The description of a failure to read. -/
def ReadFailure.message : ReadFailure → String
  | .notFound => "No such file or directory (os error 2)"
  | .notDirectory => "Not a directory (os error 20)"
  | .isDirectory => "Is a directory (os error 21)"
  | .nameTooLong => "File name too long (os error 36)"
  | .linkLoop => "Too many levels of symbolic links (os error 40)"
  | .denied => "Permission denied (os error 13)"
  | .unanswered => "Input/output error (os error 5)"
  | .noDevice => "No such device or address (os error 6)"
  | .unsuited => "Invalid argument (os error 22)"
  | .other description => description

/-- The outcome of a success that prints a text. -/
def Outcome.success (out : String) : Outcome := ⟨0, out, ""⟩

/-- The outcome of a failure with a message, after a text was printed. -/
def Outcome.failure (out message : String) : Outcome := ⟨1, out, "Error: " ++ message ++ "\n"⟩

/-- The message about a file that could not be read. -/
def unreadable (path : String) (failure : ReadFailure) : String :=
  "unable to read ROM " ++ path ++ "\n\nCaused by:\n    " ++ failure.message

/-- The name and version of the program. -/
def versionText : String := "chip8 0.1.0\n"

/-- How to use the program. -/
def usageText : String :=
  "Runs and inspects CHIP-8 ROMs from the terminal\n\n" ++
  "Usage: chip8 run [OPTIONS] <ROM>\n" ++
  "       chip8 disasm <ROM>\n\n" ++
  "Options of run:\n" ++
  "      --clock-speed <N>  Instructions executed per second [default: 540]\n" ++
  "      --timer-rate <N>   Timer decrements per second [default: 60]\n" ++
  "      --cycles <N>       Stop after this many instructions [default: 10000]\n" ++
  "      --realtime         Hold the clock speed instead of running as fast as possible\n" ++
  "      --hold <KEYS>      Keys held down for the whole run (layout 1234/QWER/ASDF/ZXCV)\n" ++
  "      --rewind <N>       Step back this many instructions before printing the final frame\n\n" ++
  "Options:\n" ++
  "  -h, --help             Print help\n" ++
  "  -V, --version          Print version\n"

/-- The outcome of a command line that makes no sense. -/
def Outcome.misuse : Outcome := ⟨2, "", usageText⟩

/-- The machine of a run before its first instruction, with its keys held down. -/
def RunSettings.prepare (settings : RunSettings) (rom : List UInt8) : Except String Machine :=
  match Keyboard.heldKeys settings.hold with
  | .error unmapped => .error unmapped.message
  | .ok keys =>
    match Machine.ofRom rom with
    | .error fault => .error fault.message
    | .ok m => .ok (keys.foldl Machine.pressKey m)

/-- A character that stands for no key is complained of before the program is looked at. -/
theorem RunSettings.prepare_of_firstUnmapped? (settings : RunSettings) (rom : List UInt8) {c : Char}
    (h : Keyboard.firstUnmapped? settings.hold = some c) :
    settings.prepare rom = .error (Keyboard.Unmapped.message ⟨c⟩) := by
  rw [prepare, (Keyboard.heldKeys_eq_error_iff settings.hold c).mpr h]

/-- The outcome of running a program. -/
def RunSettings.outcome (settings : RunSettings) (noise : Nat → UInt8) (rom : List UInt8) :
    Outcome :=
  match settings.prepare rom with
  | .error message => .failure "" message
  | .ok m =>
    let report := Host.run settings.pace settings.cycles noise m
    let last := (report.machine.rewindBy settings.rewind).2
    let out := Glyphs.render {} last.state.frame
    match report.stop with
    | .faulted fault => .failure out fault.message
    | _ => .success out

/-- The outcome of listing a program. -/
def listOutcome (rom : List UInt8) : Outcome :=
  .success (String.join ((Listing.ofRom rom).map (· ++ "\n")))

/-- The outcome of a request, where `files` reads a file. -/
def Request.outcome (files : String → Except ReadFailure (List UInt8)) (noise : Nat → UInt8) :
    Request → Outcome
  | .run settings =>
    match files settings.rom with
    | .error failure => .failure "" (unreadable settings.rom failure)
    | .ok rom => settings.outcome noise rom
  | .list path =>
    match files path with
    | .error failure => .failure "" (unreadable path failure)
    | .ok rom => listOutcome rom
  | .version => .success versionText
  | .help => .success usageText

/-- The outcome of a command line. -/
def outcome (files : String → Except ReadFailure (List UInt8)) (noise : Nat → UInt8)
    (args : List String) : Outcome :=
  match Request.ofArguments? args with
  | none => .misuse
  | some request => request.outcome files noise

end ChipEight.Shell
