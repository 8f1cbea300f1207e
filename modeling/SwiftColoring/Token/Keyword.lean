/-!
# Keywords

The reserved words. Each has one spelling and no two share one, so that a word names at most one
keyword.

* `ofSpelling?_eq_some_iff` — a word is read as a keyword exactly when it is that keyword's spelling.
-/

namespace SwiftColoring

/-- The reserved words. The suffix `Kw` keeps the names apart from words with a meaning of their own. -/
inductive Keyword where
  | associatedtypeKw
  | classKw
  | deinitKw
  | enumKw
  | extensionKw
  | fileprivateKw
  | funcKw
  | importKw
  | initKw
  | inoutKw
  | internalKw
  | letKw
  | operatorKw
  | precedencegroupKw
  | privateKw
  | protocolKw
  | publicKw
  | staticKw
  | structKw
  | subscriptKw
  | typealiasKw
  | varKw
  | breakKw
  | caseKw
  | continueKw
  | defaultKw
  | deferKw
  | doKw
  | elseKw
  | fallthroughKw
  | forKw
  | guardKw
  | ifKw
  | inKw
  | repeatKw
  | returnKw
  | switchKw
  | whereKw
  | whileKw
  | asKw
  | anyKw
  | catchKw
  | falseKw
  | isKw
  | nilKw
  | rethrowsKw
  | superKw
  | selfValueKw
  | selfTypeKw
  | throwKw
  | throwsKw
  | trueKw
  | tryKw
  | columnKw
  | fileKw
  | functionKw
  | lineKw
  | wildcardKw
  deriving DecidableEq, Repr

namespace Keyword

/-- Every keyword, in the order of the type: words of declarations, then of statements, then of
expressions and types. -/
def all : List Keyword :=
  [.associatedtypeKw, .classKw, .deinitKw, .enumKw, .extensionKw, .fileprivateKw, .funcKw,
   .importKw, .initKw, .inoutKw, .internalKw, .letKw, .operatorKw, .precedencegroupKw, .privateKw,
   .protocolKw, .publicKw, .staticKw, .structKw, .subscriptKw, .typealiasKw, .varKw, .breakKw,
   .caseKw, .continueKw, .defaultKw, .deferKw, .doKw, .elseKw, .fallthroughKw, .forKw, .guardKw,
   .ifKw, .inKw, .repeatKw, .returnKw, .switchKw, .whereKw, .whileKw, .asKw, .anyKw, .catchKw,
   .falseKw, .isKw, .nilKw, .rethrowsKw, .superKw, .selfValueKw, .selfTypeKw, .throwKw, .throwsKw,
   .trueKw, .tryKw, .columnKw, .fileKw, .functionKw, .lineKw, .wildcardKw]

/-- The word in the source. -/
def spelling : Keyword → String
  | .associatedtypeKw => "associatedtype"
  | .classKw => "class"
  | .deinitKw => "deinit"
  | .enumKw => "enum"
  | .extensionKw => "extension"
  | .fileprivateKw => "fileprivate"
  | .funcKw => "func"
  | .importKw => "import"
  | .initKw => "init"
  | .inoutKw => "inout"
  | .internalKw => "internal"
  | .letKw => "let"
  | .operatorKw => "operator"
  | .precedencegroupKw => "precedencegroup"
  | .privateKw => "private"
  | .protocolKw => "protocol"
  | .publicKw => "public"
  | .staticKw => "static"
  | .structKw => "struct"
  | .subscriptKw => "subscript"
  | .typealiasKw => "typealias"
  | .varKw => "var"
  | .breakKw => "break"
  | .caseKw => "case"
  | .continueKw => "continue"
  | .defaultKw => "default"
  | .deferKw => "defer"
  | .doKw => "do"
  | .elseKw => "else"
  | .fallthroughKw => "fallthrough"
  | .forKw => "for"
  | .guardKw => "guard"
  | .ifKw => "if"
  | .inKw => "in"
  | .repeatKw => "repeat"
  | .returnKw => "return"
  | .switchKw => "switch"
  | .whereKw => "where"
  | .whileKw => "while"
  | .asKw => "as"
  | .anyKw => "Any"
  | .catchKw => "catch"
  | .falseKw => "false"
  | .isKw => "is"
  | .nilKw => "nil"
  | .rethrowsKw => "rethrows"
  | .superKw => "super"
  | .selfValueKw => "self"
  | .selfTypeKw => "Self"
  | .throwKw => "throw"
  | .throwsKw => "throws"
  | .trueKw => "true"
  | .tryKw => "try"
  | .columnKw => "__COLUMN__"
  | .fileKw => "__FILE__"
  | .functionKw => "__FUNCTION__"
  | .lineKw => "__LINE__"
  | .wildcardKw => "_"

/-- The keyword with this spelling, if there is one. -/
def ofSpelling? (word : List Char) : Option Keyword :=
  all.find? fun k => k.spelling.toList == word

/-- Keywords that introduce a declaration, so that a modifier may stand before them. -/
def isDeclaration : Keyword → Bool
  | .associatedtypeKw | .classKw | .deinitKw | .enumKw | .extensionKw | .fileprivateKw | .funcKw
    | .importKw | .initKw | .internalKw | .letKw | .operatorKw | .privateKw | .protocolKw
    | .publicKw | .staticKw | .structKw | .subscriptKw | .typealiasKw | .varKw | .caseKw => true
  | _ => false

theorem ofSpelling?_spelling (k : Keyword) : ofSpelling? k.spelling.toList = some k := by
  cases k <;> decide

theorem ofSpelling?_eq_some_iff {word : List Char} {k : Keyword} :
    ofSpelling? word = some k ↔ word = k.spelling.toList := by
  constructor
  · intro h
    unfold ofSpelling? at h
    have spelled := List.find?_some h
    exact (eq_of_beq spelled).symm
  · rintro rfl
    exact ofSpelling?_spelling k

end Keyword

end SwiftColoring
