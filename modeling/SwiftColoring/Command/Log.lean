import SwiftColoring.Command.Options
import SwiftColoring.Drawing.Token
import SwiftColoring.Text.Styled

/-!
# Log records

What a run says about itself while it works, on the error stream, each record at its level.
-/

namespace SwiftColoring

/-- Something worth recording. -/
inductive LogRecord where
  | highlighting (path : String)
  | reading (path : String)
  | parsing (byteCount : Nat)
  | refined (r : Refinement)
  | drawn (byteCount tokenCount : Nat)
  | finished
  deriving DecidableEq, Repr

/-- The decimal fraction that a number of parts makes, with its point, without zeros at the end. -/
def fractionDigits (places parts : Nat) : String :=
  let digits := (toString parts).toList
  let padded := List.replicate (places - digits.length) '0' ++ digits
  let kept := (padded.reverse.dropWhile (· == '0')).reverse
  if kept.isEmpty then "" else String.ofList ('.' :: kept)

/-- A duration in the largest unit of which it holds one. -/
def durationText (nanoseconds : Nat) : String :=
  if 1000000000 ≤ nanoseconds then
    toString (nanoseconds / 1000000000) ++ fractionDigits 9 (nanoseconds % 1000000000) ++ "s"
  else if 1000000 ≤ nanoseconds then
    toString (nanoseconds / 1000000) ++ fractionDigits 6 (nanoseconds % 1000000) ++ "ms"
  else if 1000 ≤ nanoseconds then
    toString (nanoseconds / 1000) ++ fractionDigits 3 (nanoseconds % 1000) ++ "µs"
  else toString nanoseconds ++ "ns"

namespace LogRecord

/-- The level of a record. -/
def level : LogRecord → LogLevel
  | .highlighting _ | .finished => .info
  | .reading _ | .drawn .. => .debug
  | .parsing _ | .refined _ => .trace

/-- The colour of a level. -/
def hue? : LogLevel → Option Hue
  | .off => none
  | .error => some .red
  | .warn => some .yellow
  | .info => some .blue
  | .debug => some .magenta
  | .trace => some .green

/-- The record in words; `elapsed` is how long the run took. -/
def message (elapsed : String) : LogRecord → String
  | .highlighting path => "highlighting " ++ path
  | .reading path => "reading " ++ path
  | .parsing byteCount => s!"parsing {byteCount} bytes of swift"
  | .refined r =>
    String.ofList r.text ++ " refined to " ++ r.category.name ++ " after " ++ r.previous.render
  | .drawn byteCount tokenCount =>
    s!"highlighted {byteCount} bytes into {tokenCount} tokens in {elapsed}"
  | .finished => "highlighted in " ++ elapsed

/-- The line of a record, with the level in its colour. -/
def render (paint : Painter) (elapsed : String) (r : LogRecord) : String :=
  paint { hue := hue? r.level } (r.level.word ++ ":") ++ " " ++
    r.message elapsed ++ "\n"

/-- The lines of the records that a threshold admits. -/
def renderAll (paint : Painter) (elapsed : String) (threshold : LogLevel) (rs : List LogRecord) :
    String :=
  String.join <| (rs.filter fun r => threshold.admits r.level).map (render paint elapsed)

end LogRecord

end SwiftColoring
