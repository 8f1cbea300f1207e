/-!
# Options of a run

A run highlights one file. Two choices out of fixed lists and a flag tell what it says about its work,
what it prints where it fails, and in which form it prints the result.
-/

namespace SwiftColoring

/-- The levels of log records to print, each with those before it. -/
inductive LogLevel where
  | off
  | error
  | warn
  | info
  | debug
  | trace
  deriving DecidableEq, Repr

namespace LogLevel

/-- The word for a level. -/
def word : LogLevel → String
  | .off => "off"
  | .error => "error"
  | .warn => "warn"
  | .info => "info"
  | .debug => "debug"
  | .trace => "trace"

/-- The levels, least talkative first. -/
def all : List LogLevel := [.off, .error, .warn, .info, .debug, .trace]

/-- The level that the word names. -/
def ofWord? (word : String) : Option LogLevel := all.find? (·.word == word)

/-- Records of the second level are printed at the first. -/
def admits (threshold level : LogLevel) : Bool := all.idxOf level ≤ all.idxOf threshold

end LogLevel

/-- What is printed for a file that cannot be highlighted. -/
inductive OnError where
  /-- An empty list. -/
  | empty
  /-- A list of one object with the message. -/
  | diagnostic
  deriving DecidableEq, Repr

namespace OnError

/-- The word for a choice. -/
def word : OnError → String
  | .empty => "empty"
  | .diagnostic => "diagnostic"

/-- The choices. -/
def all : List OnError := [.empty, .diagnostic]

/-- The choice that the word names. -/
def ofWord? (word : String) : Option OnError := all.find? (·.word == word)

/-- What is said of a word that names no choice. -/
def refusal (word : String) : String := "unknown error presentation `" ++ word ++ "`"

end OnError

/-- The options of a run. -/
structure Options where
  logLevel : LogLevel
  onError : OnError
  /-- Print a listing for readers. -/
  pretty : Bool
  file : String
  deriving DecidableEq, Repr

end SwiftColoring
