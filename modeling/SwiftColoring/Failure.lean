import SwiftColoring.Diagnostic
import SwiftColoring.Text.Utf8
import SwiftColoring.Token.Kind

/-!
# Failures

The causes for which a source is not highlighted, and the one place that puts them into words. Every
cause that lies in the text names the stretch of text to blame.
-/

namespace SwiftColoring

/-- Why a file cannot be read. -/
inductive ReadFault where
  | notFound
  | isDirectory
  /-- A part of the path other than the last is a file. -/
  | notADirectory
  /-- Any other cause, in the words of the system. -/
  | other (message : String)
  deriving DecidableEq, Repr

/-- The cause in words. -/
def ReadFault.message : ReadFault → String
  | .notFound => "No such file or directory (os error 2)"
  | .isDirectory => "Is a directory (os error 21)"
  | .notADirectory => "Not a directory (os error 20)"
  | .other message => message

/-- Why a source is not highlighted. -/
inductive Failure where
  /-- A block comment never ends; `opener` is its opening marker. -/
  | openBlockComment (opener : Span)
  /-- A string literal never ends; `opening` is the place before its first quote mark. -/
  | openString (opening : Pos)
  /-- The source ends inside an interpolation of the literal opened at `opening`. -/
  | openInterpolation (opening : Pos)
  /-- A raw string never ends; `opening` is the place before its first number sign. -/
  | openRawString (opening : Pos)
  /-- A delimiter closes a group where none is open. -/
  | unexpectedClosing (closing : Kind) (span : Span)
  /-- A delimiter closes a group opened by one of another sort. -/
  | mismatchedClosing (closing : Kind) (span : Span) (opener : Kind) (openedAt : Span)
  /-- A group is not closed. -/
  | unclosedGroup (opener : Kind) (span : Span)
  /-- The bytes are no text. -/
  | notText (fault : Utf8.Fault)
  /-- The file cannot be read. -/
  | unreadable (fault : ReadFault)
  deriving DecidableEq, Repr

namespace Failure

/-- What is at fault. -/
def fault : Failure → Fault
  | .unreadable _ => .io
  | _ => .parse

/-- The failure in words. -/
def message : Failure → String
  | .openBlockComment _ => "unterminated block comment"
  | .openString _ => "unterminated string literal"
  | .openInterpolation _ => "unterminated string interpolation"
  | .openRawString _ => "unterminated raw string literal"
  | .unexpectedClosing closing _ => "unexpected closing delimiter " ++ closing.description
  | .mismatchedClosing closing _ opener openedAt =>
    "mismatched closing delimiter " ++ closing.description ++ ", expected the " ++
      opener.description ++ " opened at " ++ openedAt.render ++ " to be closed first"
  | .unclosedGroup opener _ => "unclosed delimiter " ++ opener.description
  | .notText fault => "source is not valid UTF-8 (" ++ fault.message ++ ")"
  | .unreadable fault => fault.message

/-- The stretch of source to blame. -/
def span? : Failure → Option Span
  | .openBlockComment opener => some opener
  | .openString opening | .openInterpolation opening | .openRawString opening =>
    some (.point opening)
  | .unexpectedClosing _ span | .mismatchedClosing _ span _ _ | .unclosedGroup _ span => some span
  | .notText _ | .unreadable _ => none

/-- The failure as it is reported. -/
def diagnostic (f : Failure) : Diagnostic := ⟨f.fault, f.message, f.span?⟩

end Failure

end SwiftColoring
