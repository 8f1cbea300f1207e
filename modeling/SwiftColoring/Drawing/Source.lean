import SwiftColoring.Drawing.Token
import SwiftColoring.Tree.Walk

/-!
# Drawing a source

A source is drawn from its bytes: they must be text, the text must have tokens, and, unless only the
flat list of tokens is asked for, their delimiters must match. Nothing is drawn of a source that fails
part way.
-/

namespace SwiftColoring

/-- A way to get from the text of a source to its tokens. -/
abbrev Tokenizer := List Char → Except Failure (List Token)

/-- The tokens of a source whose delimiters match. -/
def treeTokens : Tokenizer := fun text => (SourceTree.ofText? text).map SourceTree.walk

/-- The text of a source. -/
def sourceText (bytes : ByteArray) : Except Failure (List Char) :=
  (Utf8.decode bytes).mapError .notText

/-- A source drawn through a way to get its tokens. -/
def highlightWith (tokenizer : Tokenizer) (bytes : ByteArray) : Except Failure (List Drawn) := do
  let text ← sourceText bytes
  let ts ← tokenizer text
  return drawTokens ts

/-- A source drawn. -/
def highlight (bytes : ByteArray) : Except Failure (List Drawn) := highlightWith treeTokens bytes

/-- A source drawn from its flat list of tokens, whatever its delimiters. -/
def highlightFlat (bytes : ByteArray) : Except Failure (List Drawn) := highlightWith tokens bytes

/-- Where the bytes of files come from. -/
abbrev FileReader := String → Except ReadFault ByteArray

/-- A file drawn. -/
def highlightFile (read : FileReader) (path : String) : Except Failure (List Drawn) := do
  let bytes ← (read path).mapError .unreadable
  highlight bytes

end SwiftColoring
