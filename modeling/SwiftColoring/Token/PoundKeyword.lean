/-!
# Pound keywords

The words that are keywords when a number sign stands directly before them: conditions of
compilation, and expressions that the compiler fills in. Spellings are without the sign.

* `ofSpelling?_eq_some_iff` — a word is read as a pound keyword exactly when it is its spelling.
-/

namespace SwiftColoring

/-- The words that follow a number sign. -/
inductive PoundKeyword where
  | ifPound
  | elsePound
  | elseifPound
  | endifPound
  | sourceLocationPound
  | filePound
  | linePound
  | columnPound
  | dsohandlePound
  | functionPound
  | selectorPound
  | keyPathPound
  | colorLiteralPound
  | fileLiteralPound
  | imageLiteralPound
  | availablePound
  | warningPound
  | errorPound
  deriving DecidableEq, Repr

namespace PoundKeyword

/-- Every pound keyword, in the order of the type. -/
def all : List PoundKeyword :=
  [.ifPound, .elsePound, .elseifPound, .endifPound, .sourceLocationPound, .filePound, .linePound,
   .columnPound, .dsohandlePound, .functionPound, .selectorPound, .keyPathPound,
   .colorLiteralPound, .fileLiteralPound, .imageLiteralPound, .availablePound, .warningPound,
   .errorPound]

/-- The word in the source, without the number sign. -/
def spelling : PoundKeyword → String
  | .ifPound => "if"
  | .elsePound => "else"
  | .elseifPound => "elseif"
  | .endifPound => "endif"
  | .sourceLocationPound => "sourceLocation"
  | .filePound => "file"
  | .linePound => "line"
  | .columnPound => "column"
  | .dsohandlePound => "dsohandle"
  | .functionPound => "function"
  | .selectorPound => "selector"
  | .keyPathPound => "keyPath"
  | .colorLiteralPound => "colorLiteral"
  | .fileLiteralPound => "fileLiteral"
  | .imageLiteralPound => "imageLiteral"
  | .availablePound => "available"
  | .warningPound => "warning"
  | .errorPound => "error"

/-- The pound keyword with this spelling, if there is one. -/
def ofSpelling? (word : List Char) : Option PoundKeyword :=
  all.find? fun k => k.spelling.toList == word

theorem ofSpelling?_spelling (k : PoundKeyword) : ofSpelling? k.spelling.toList = some k := by
  cases k <;> decide

theorem ofSpelling?_eq_some_iff {word : List Char} {k : PoundKeyword} :
    ofSpelling? word = some k ↔ word = k.spelling.toList := by
  constructor
  · intro h
    unfold ofSpelling? at h
    have spelled := List.find?_some h
    exact (eq_of_beq spelled).symm
  · rintro rfl
    exact ofSpelling?_spelling k

end PoundKeyword

end SwiftColoring
