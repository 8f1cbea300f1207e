import SwiftColoring.Lexeme.Character

/-!
# Words

A word is a keyword if it is spelled like one, unless a backtick stands directly before it. A few words
act as keywords only where they modify a declaration or name an accessor, which shows in what follows:
another such word, a keyword that introduces a declaration, or for accessors a brace or the parenthesis
of a parameter. Behind a dot they are members.
-/

namespace SwiftColoring.Word

/-- Words that name an accessor. -/
def accessors : List String := ["get", "set", "willSet", "didSet"]

/-- Words that modify a declaration. -/
def modifiers : List String :=
  ["mutating", "nonmutating", "override", "convenience", "final", "lazy", "weak", "unowned",
   "optional", "required", "dynamic", "infix", "prefix", "postfix", "open", "indirect"]

/-- The word names an accessor. -/
def isAccessor (word : List Char) : Bool := accessors.any fun w => w.toList == word

/-- The word modifies a declaration. -/
def isModifier (word : List Char) : Bool := modifiers.any fun w => w.toList == word

/-- The word that the text starts with; empty if it starts with none. -/
def leading : List Char → List Char
  | [] => []
  | c :: rest => if isWordStart c then (c :: rest).takeWhile isWordChar else []

/-- The word may stand behind a modifier. -/
def followsModifier (word : List Char) : Bool :=
  isAccessor word || isModifier word || (Keyword.ofSpelling? word).any Keyword.isDeclaration

/-- The text that follows an accessor or modifier makes a keyword of it. -/
def actsAsKeyword (word text : List Char) : Bool :=
  match text.dropWhile isWhitespace with
  | [] => false
  | c :: rest =>
    if c == '{' || c == '}' then isAccessor word
    else if c == '(' then isAccessor word && word != "get".toList
    else followsModifier (leading (c :: rest))

/-- The kind of a word between the character before it, if any, and the text behind it. -/
def kind (previous : Option Char) (word text : List Char) : Kind :=
  if previous == some '`' then .identifier
  else
    match Keyword.ofSpelling? word with
    | some k => .keyword k
    | none =>
      if previous != some '.' && (isAccessor word || isModifier word) && actsAsKeyword word text then
        .contextualKeyword
      else .identifier

end SwiftColoring.Word
