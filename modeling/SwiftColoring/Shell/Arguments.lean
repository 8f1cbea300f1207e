import SwiftColoring.Command.Options

/-!
# Arguments of the command line

The arguments of the program: one file, two options that take a word out of a fixed list, and a flag.
An option may also be set through the environment; then it stands behind what the command line says.

Arguments are read from left to right, and the first that is unknown or asks for help ends the
reading. Only then is it checked, in this order, that there is a file, that every word given for an
option is in its list, and that nothing is given twice.
-/

namespace SwiftColoring

/-- Why the arguments do not make a run. -/
inductive UsageFault where
  | missingArgument
  | invalidValue
  | unknownArgument
  | repeatedArgument
  | helpAsked
  | versionAsked
  deriving DecidableEq, Repr

/-- An option that takes a word. -/
inductive WordOption where
  | logLevel
  | onError
  deriving DecidableEq, Repr

namespace WordOption

/-- The name of the option. -/
def name : WordOption → String
  | .logLevel => "log-level"
  | .onError => "on-error"

/-- The option with the name. -/
def ofName? (name : String) : Option WordOption :=
  [.logLevel, .onError].find? (WordOption.name · == name)

/-- The variable of the environment that sets the option. -/
def environmentName : WordOption → String
  | .logLevel => "LOG_LEVEL"
  | .onError => "HIGHLIGHTER_ON_ERROR"

end WordOption

/-- Variables of the environment. -/
abbrev Environment := List (String × String)

namespace Environment

/-- The value of a variable. -/
def value? (env : Environment) (name : String) : Option String :=
  (env.find? (·.1 == name)).map (·.2)

end Environment

/-! ## Reading arguments -/

/-- The arguments read so far. -/
structure Arguments where
  /-- An option whose word is the next argument. -/
  awaiting : Option WordOption := none
  /-- The arguments from here on are files. -/
  filesOnly : Bool := false
  /-- The options met, a word with each that has one. -/
  options : List (WordOption × Option String) := []
  /-- How often the flag was met. -/
  prettyCount : Nat := 0
  file : Option String := none

namespace Arguments

/-- The words given for an option, in order. -/
def words (a : Arguments) (o : WordOption) : List String :=
  (a.options.filter (·.1 == o)).filterMap (·.2)

/-- How often an option was met. -/
def occurrences (a : Arguments) (o : WordOption) : Nat := (a.options.filter (·.1 == o)).length

/-- A file argument. -/
def addFile (a : Arguments) (file : String) : Except UsageFault Arguments :=
  match a.file with
  | none => .ok { a with file := some file }
  | some _ => .error .unknownArgument

/-- A long argument: its name, and what follows the first equals sign in it. -/
def addLong (a : Arguments) (name : String) (value : Option String) : Except UsageFault Arguments :=
  match WordOption.ofName? name with
  | some o =>
    match value with
    | some word => .ok { a with options := a.options ++ [(o, some word)] }
    | none => .ok { a with awaiting := some o }
  | none =>
    if name == "pretty" then .ok { a with prettyCount := a.prettyCount + 1 }
    else if name == "help" then .error .helpAsked
    else if name == "version" then .error .versionAsked
    else .error .unknownArgument

/-- A short argument: the letters behind its dash. -/
def addShort (letters : List Char) : UsageFault :=
  match letters with
  | 'h' :: _ => .helpAsked
  | 'V' :: _ => .versionAsked
  | _ => .unknownArgument

/-- The name of a long argument and its value, if it has an equals sign. -/
def splitLong (text : List Char) : String × Option String :=
  let name := text.takeWhile (· != '=')
  match text.dropWhile (· != '=') with
  | [] => (String.ofList name, none)
  | _ :: value => (String.ofList name, some (String.ofList (value.dropWhile (· == '='))))

/-- An option still without its word gets none. -/
def stopAwaiting (a : Arguments) : Arguments :=
  match a.awaiting with
  | none => a
  | some o => { a with awaiting := none, options := a.options ++ [(o, none)] }

/-- One more argument. -/
def add (a : Arguments) (arg : String) : Except UsageFault Arguments :=
  if a.filesOnly then a.addFile arg
  else
    match arg.toList with
    -- two dashes by themselves: only files follow
    | '-' :: '-' :: [] => .ok { a.stopAwaiting with filesOnly := true }
    | '-' :: '-' :: text =>
      let (name, value) := splitLong (text.dropWhile (· == '-'))
      a.stopAwaiting.addLong name value
    | '-' :: c :: text => .error (addShort (c :: text))
    -- a word, or a dash by itself, which counts as one
    | _ =>
      match a.awaiting with
      | some o => .ok { a with awaiting := none, options := a.options ++ [(o, some arg)] }
      | none => a.addFile arg

/-- All arguments. -/
def ofList (args : List String) : Except UsageFault Arguments :=
  (args.foldlM add ({} : Arguments)).map stopAwaiting

end Arguments

/-! ## Checking options -/

namespace Options

/-- The words for an option: those of the command line, and behind them that of the environment. -/
def words (a : Arguments) (env : Environment) (o : WordOption) : List String :=
  a.words o ++ (env.value? o.environmentName).toList

/-- The words all name choices. -/
def allNamed {α : Type} (ofWord? : String → Option α) (words : List String) : Bool :=
  words.all fun w => (ofWord? w).isSome

/-- The choice that the first word names, or the standing choice if there is no word. -/
def choice {α : Type} (ofWord? : String → Option α) (standing : α) (words : List String) : α :=
  (words.head?.bind ofWord?).getD standing

/-- The options that the arguments and the environment make. -/
def ofArguments (env : Environment) (args : List String) : Except UsageFault Options := do
  let a ← Arguments.ofList args
  let levels := words a env .logLevel
  let choices := words a env .onError
  match a.file with
  | none => .error .missingArgument
  | some file =>
    if !(allNamed LogLevel.ofWord? levels && allNamed OnError.ofWord? choices) then
      .error .invalidValue
    else if 1 < a.occurrences .logLevel || 1 < a.occurrences .onError || 1 < a.prettyCount then
      .error .repeatedArgument
    else
      .ok {
        logLevel := choice LogLevel.ofWord? .warn levels
        onError := choice OnError.ofWord? .empty choices
        pretty := a.prettyCount == 1
        file }

end Options

end SwiftColoring
