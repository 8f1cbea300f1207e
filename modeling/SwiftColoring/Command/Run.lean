import SwiftColoring.Command.Listing
import SwiftColoring.Command.Log
import SwiftColoring.Diagnostic.Report
import SwiftColoring.Drawing.Source

/-!
# A run of the program

A run highlights one file as its options say and prints the result: JSON or a listing on the output
stream, records and reports on the error stream. A file that cannot be highlighted is no failure of the
run.

* `highlightRecorded_result` — recording what happens does not change the result.
-/

namespace SwiftColoring

/-- What a run prints, and the code it ends with. -/
structure Outcome where
  stdout : String
  stderr : String
  code : Nat
  deriving DecidableEq, Repr

/-- The result for a file and the records made on the way to it. -/
structure Recorded where
  records : List LogRecord
  result : Except Failure (List Drawn)

/-- A file drawn, with records. -/
def highlightRecorded (read : FileReader) (path : String) : Recorded :=
  let begun := [LogRecord.highlighting path, LogRecord.reading path]
  match read path with
  | .error fault => ⟨begun, .error (.unreadable fault)⟩
  | .ok bytes =>
    match sourceText bytes with
    | .error failure => ⟨begun, .error failure⟩
    | .ok text =>
      let begun := begun ++ [.parsing bytes.size]
      match treeTokens text with
      | .error failure => ⟨begun, .error failure⟩
      | .ok ts =>
        let drawn := drawTokens ts
        ⟨begun ++ (refinements ts).map .refined ++ [.drawn bytes.size drawn.length, .finished],
          .ok drawn⟩

theorem highlightRecorded_result (read : FileReader) (path : String) :
    (highlightRecorded read path).result = highlightFile read path := by
  unfold highlightRecorded highlightFile
  cases read path with
  | error fault => rfl
  | ok bytes =>
    show Recorded.result _ = highlight bytes
    unfold highlight highlightWith
    cases htext : sourceText bytes with
    | error failure => simp only [htext]; rfl
    | ok text =>
      -- both sides now look at the tokens of the same text
      cases htokens : treeTokens text with
      | error failure => simp only [htext, htokens, bind, Except.bind]
      | ok ts => simp only [htext, htokens, bind, Except.bind, pure, Except.pure]

/-- What is printed for a failure. -/
def OnError.output (onError : OnError) (failure : Failure) : String :=
  match onError with
  | .empty => "[]"
  | .diagnostic =>
    "[\x7b\"error\":" ++ JsonString.render failure.diagnostic.render.toList ++ "\x7d]"

/-- The text of a file, if it can be read. -/
def fileText? (read : FileReader) (path : String) : Option (List Char) :=
  match read path with
  | .error _ => none
  | .ok bytes => (sourceText bytes).toOption

/-- What is printed for a recorded result; `elapsed` is how long it took. -/
def Options.present (o : Options) (paint : Painter) (read : FileReader) (elapsed : String)
    (recorded : Recorded) : Outcome :=
  let records := LogRecord.renderAll paint elapsed o.logLevel recorded.records
  match recorded.result with
  | .ok drawn =>
    let output := if o.pretty then Listing.render paint drawn else Drawn.jsonArray drawn
    ⟨output ++ "\n", records, 0⟩
  | .error failure =>
    let report := Report.render paint (some o.file) (fileText? read o.file) failure.diagnostic
    ⟨o.onError.output failure ++ "\n", records ++ report, 0⟩

end SwiftColoring
