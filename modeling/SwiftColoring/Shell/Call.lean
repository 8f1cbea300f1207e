import SwiftColoring.Command.Run
import SwiftColoring.Shell.Arguments
import SwiftColoring.Shell.Escapes

/-!
# Calls of the program

A call is a run if its arguments make one. Otherwise the program says how it is called.
-/

namespace SwiftColoring

/-- Text is set off only by force. -/
def Environment.painter (env : Environment) : Painter :=
  match env.value? "CLICOLOR_FORCE" with
  | none => .plain
  | some value => if value == "0" then .plain else .escapes

/-- How the program is called. -/
def usage : String :=
  "USAGE:\n    highlighter [--pretty] [--log-level <log-level>] [--on-error <on-error>] <FILE>\n"

/-- What the program says when it is called otherwise. -/
def UsageFault.message : UsageFault → String
  | .missingArgument => "error: a required argument was not provided: <FILE>\n\n" ++ usage
  | .invalidValue => "error: a value is not among the possible values of its option\n\n" ++ usage
  | .unknownArgument => "error: an argument was found which was not expected\n\n" ++ usage
  | .repeatedArgument => "error: an argument was provided more than once\n\n" ++ usage
  | .helpAsked => "highlighter 0.1.0\nPrints the highlight tokens of a Swift source file\n\n" ++ usage
  | .versionAsked => "highlighter 0.1.0\n"

/-- The outcome of a call that makes no run. -/
def UsageFault.outcome (fault : UsageFault) : Outcome :=
  match fault with
  | .helpAsked | .versionAsked => ⟨fault.message, "", 0⟩
  | _ => ⟨"", fault.message, 1⟩

/-- A call of the program. -/
def runCommand (env : Environment) (args : List String) (read : FileReader) (elapsed : String) :
    Outcome :=
  match Options.ofArguments env args with
  | .error fault => fault.outcome
  | .ok o => o.present env.painter read elapsed (highlightRecorded read o.file)

end SwiftColoring
