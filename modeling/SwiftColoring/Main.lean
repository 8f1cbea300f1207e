import SwiftColoring.Shell.Call

/-!
# The program

Reads the environment, the arguments and the file, and prints the outcome of the run.
-/

namespace SwiftColoring.Main

/-- The variables that the program looks at. -/
def variableNames : List String := ["LOG_LEVEL", "HIGHLIGHTER_ON_ERROR", "CLICOLOR_FORCE"]

/-- The environment, as far as the program looks at it. -/
def environment : IO Environment := do
  let values ← variableNames.mapM fun name => return (name, ← IO.getEnv name)
  return values.filterMap fun (name, value) => value.map (name, ·)

/-- The number of a system error; some callers hand it out negated. -/
def errorNumber (code : UInt32) : UInt32 := if code < 0x80000000 then code else 0 - code

/-- Why the system did not read a file. -/
def readFault : IO.Error → ReadFault
  | .noFileOrDirectory .. => .notFound
  | .inappropriateType _ code _ => if errorNumber code == 20 then .notADirectory else .isDirectory
  | .permissionDenied .. => .other "Permission denied (os error 13)"
  | e => .other (toString e)

/-- The bytes of a file, or why they cannot be read. -/
def readFile (path : String) : IO (Except ReadFault ByteArray) := do
  try
    return .ok (← IO.FS.readBinFile path)
  catch e =>
    return .error (readFault e)

end SwiftColoring.Main

open SwiftColoring in
def main (args : List String) : IO UInt32 := do
  let env ← Main.environment
  let outcome ← match Options.ofArguments env args with
    | .error fault => pure fault.outcome
    | .ok o => do
      let contents ← Main.readFile o.file
      let begun ← IO.monoNanosNow
      let recorded ← IO.lazyPure fun _ => highlightRecorded (fun _ => contents) o.file
      let elapsed := durationText ((← IO.monoNanosNow) - begun)
      pure (o.present env.painter (fun _ => contents) elapsed recorded)
  IO.print outcome.stdout
  IO.eprint outcome.stderr
  return outcome.code.toUInt32
