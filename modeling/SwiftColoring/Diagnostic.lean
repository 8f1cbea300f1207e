import SwiftColoring.Text.Position

/-!
# Diagnostics

What a failure looks like from outside: whether the source or its file is at fault, a message, and the
stretch of source to blame where there is one.
-/

namespace SwiftColoring

/-- What is at fault. -/
inductive Fault where
  /-- The source does not parse. -/
  | parse
  /-- The file cannot be read. -/
  | io
  deriving DecidableEq, Repr

/-- The fault in words. -/
def Fault.render : Fault → String
  | .parse => "parse error"
  | .io => "i/o error"

/-- A failure as it is reported. -/
structure Diagnostic where
  fault : Fault
  message : String
  span : Option Span
  deriving DecidableEq, Repr

/-- The diagnostic on one line. -/
def Diagnostic.render (d : Diagnostic) : String :=
  d.fault.render ++ ": " ++ d.message ++
    match d.span with
    | some span => " at " ++ span.render
    | none => ""

end SwiftColoring
