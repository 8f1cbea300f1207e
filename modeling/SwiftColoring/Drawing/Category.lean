import SwiftColoring.Token.Kind

/-!
# Categories

What a stretch of source is drawn as. The order of the categories is part of the output format, where
each stands as its number.

The category of a token follows from its kind, except that an identifier may turn out to name a type,
a function or a module by the token before it. Binary operators and contextual keywords are drawn like
floating literals, as readers of the output expect.
-/

namespace SwiftColoring

/-- What a stretch of source is drawn as. -/
inductive Category where
  | className
  | functionName
  | importName
  | identifier
  | integer
  | float
  | keyword
  | string
  | atSign
  | selfOrSuper
  | anyKeyword
  | stringInterpolationAnchor
  | lineComment
  | blockComment
  | operatorOrPunctuation
  | newline
  | unknown
  deriving DecidableEq, Repr

namespace Category

/-- Every category, in order. -/
def all : List Category :=
  [.className, .functionName, .importName, .identifier, .integer, .float, .keyword, .string, .atSign,
   .selfOrSuper, .anyKeyword, .stringInterpolationAnchor, .lineComment, .blockComment,
   .operatorOrPunctuation, .newline, .unknown]

/-- The number of a category: its place in the order, from zero. -/
def ordinal (c : Category) : Nat := all.idxOf c

/-- The name of a category. -/
def name : Category → String
  | .className => "className"
  | .functionName => "functionName"
  | .importName => "importName"
  | .identifier => "identifier"
  | .integer => "integer"
  | .float => "float"
  | .keyword => "keyword"
  | .string => "string"
  | .atSign => "atSign"
  | .selfOrSuper => "selfOrSuper"
  | .anyKeyword => "anyKeyword"
  | .stringInterpolationAnchor => "stringInterpolationAnchor"
  | .lineComment => "lineComment"
  | .blockComment => "blockComment"
  | .operatorOrPunctuation => "operatorOrPunctuation"
  | .newline => "newline"
  | .unknown => "unknown"

/-- The category of tokens of a kind, none for those that are not drawn. -/
def ofKind? : Kind → Option Category
  | .integer _ => some .integer
  | .float | .spacedBinary | .unspacedBinary | .contextualKeyword => some .float
  | .rawString | .stringSegment => some .string
  | .interpolationEnd => some .stringInterpolationAnchor
  | .atSign => some .atSign
  | .keyword .selfValueKw | .keyword .superKw => some .selfOrSuper
  | .keyword .anyKw => some .anyKeyword
  | .keyword .wildcardKw => some .operatorOrPunctuation
  | .keyword _ | .poundKeyword _ => some .keyword
  | .equal | .arrow | .comma | .period | .prefixPeriod | .colon | .semicolon
  | .quote | .multilineQuote | .backslash | .infixQuestion | .postfixQuestion
  | .leftAngle | .rightAngle | .leftBrace | .rightBrace | .leftParen | .rightParen
  | .leftBracket | .rightBracket => some .operatorOrPunctuation
  | .identifier | .dollarIdentifier => some .identifier
  | .prefixOperator | .postfixOperator | .prefixAmpersand | .exclamation | .pound | .unknown
  | .eof => none

/-- What an identifier behind a token of this kind names, if that shows. `capital` says that it starts
with a capital letter. -/
def named? (previous : Kind) (capital : Bool) : Option Category :=
  match previous with
  | .keyword .importKw => some .importName
  | .keyword .funcKw => some .functionName
  | .keyword .typealiasKw | .colon => some .className
  | .keyword .classKw | .keyword .enumKw | .keyword .structKw | .keyword .protocolKw
  | .keyword .isKw | .keyword .asKw | .period | .comma | .equal | .leftBracket =>
    if capital then some .className else none
  | _ => none

end Category

end SwiftColoring
