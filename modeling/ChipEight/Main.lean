import ChipEight.Noise
import ChipEight.Shell.Outcome

/-!
# The command line program

Reads the file that a request names, prints the outcome of the request and exits with its code. A
run that holds the clock speed takes as long as its instructions would.
-/

namespace ChipEight.Shell

/-- The failure that the number of an error tells, which the system may negate. -/
def ReadFailure.ofNumber (code : UInt32) (details : String) : ReadFailure :=
  match (min code (0 - code)).toNat with
  | 2 => .notFound
  | 5 => .unanswered
  | 6 => .noDevice
  | 13 => .denied
  | 20 => .notDirectory
  | 21 => .isDirectory
  | 22 => .unsuited
  | 36 => .nameTooLong
  | 40 => .linkLoop
  | _ => .other details

/-- The failure that an error of the system stands for. -/
def ReadFailure.ofError : IO.Error → ReadFailure
  | .noFileOrDirectory _ code details | .inappropriateType _ code details
  | .invalidArgument _ code details | .permissionDenied _ code details
  | .noSuchThing _ code details | .hardwareFault code details => .ofNumber code details
  | e => .other (toString e)

/-- The bytes of a file, or why they cannot be read. -/
def readBytes (path : String) : IO (Except ReadFailure (List UInt8)) := do
  try
    let bytes ← IO.FS.readBinFile path
    return .ok bytes.toList
  catch e => return .error (.ofError e)

/-- The file that a request reads. -/
def Request.path? : Request → Option String
  | .run settings => some settings.rom
  | .list path => some path
  | _ => none

/-- Wait as long as a run takes at its clock speed, if it is to hold that. -/
def Request.pause (request : Request) (noise : Nat → UInt8)
    (contents : Except ReadFailure (List UInt8)) : IO Unit := do
  match request, contents with
  | .run settings, .ok rom =>
    if settings.realtime then
      match settings.prepare rom with
      | .ok m =>
        let executed := (Host.run settings.pace settings.cycles noise m).executed
        IO.sleep (UInt32.ofNat (executed * 1000 / settings.pace.clockSpeed))
      | .error _ => return
  | _, _ => return

/-- Print an outcome and give its exit code. -/
def Outcome.finish (o : Outcome) : IO UInt32 := do
  (← IO.getStdout).putStr o.out
  (← IO.getStderr).putStr o.err
  return o.code.toUInt32

/-- Carry out a request. -/
def Request.perform (request : Request) : IO UInt32 := do
  let seed := UInt64.ofNat (← IO.monoNanosNow)
  let noise := Noise.byte seed
  let contents ← match request.path? with
    | some path => readBytes path
    | none => pure (.error .notFound)
  request.pause noise contents
  (request.outcome (fun _ ↦ contents) noise).finish

end ChipEight.Shell

/-- Carry out the request that the arguments make. -/
def main (args : List String) : IO UInt32 :=
  match ChipEight.Shell.Request.ofArguments? args with
  | some request => request.perform
  | none => ChipEight.Shell.Outcome.misuse.finish
