import SwiftColoring.Token.Keyword
import SwiftColoring.Token.PoundKeyword

/-!
# Kinds of tokens

What a token is, as far as it can be told without a grammar of declarations and expressions.
Operators are told apart by what stands directly on either side of them, and the quotes of a string
literal, its text and the parts of its interpolations are tokens of their own.
-/

namespace SwiftColoring

/-- The base of an integer literal. -/
inductive Base where
  | decimal
  | binary
  | octal
  | hex
  deriving DecidableEq, Repr

/-- How a literal announces its base. -/
def Base.marker : Base → String
  | .decimal => ""
  | .binary => "0b"
  | .octal => "0o"
  | .hex => "0x"

/-- What a token is. -/
inductive Kind where
  | keyword (k : Keyword)
  | poundKeyword (k : PoundKeyword)
  | integer (base : Base)
  | float
  /-- A whole raw string, delimiters included. -/
  | rawString
  /-- A run of text inside a string literal. -/
  | stringSegment
  | quote
  | multilineQuote
  /-- The parenthesis that ends an interpolation. -/
  | interpolationEnd
  | identifier
  /-- A dollar sign with the identifier characters behind it. -/
  | dollarIdentifier
  /-- An identifier that acts as a keyword where it stands. -/
  | contextualKeyword
  | spacedBinary
  | unspacedBinary
  | prefixOperator
  | postfixOperator
  | prefixAmpersand
  | exclamation
  | infixQuestion
  | postfixQuestion
  | equal
  | arrow
  | period
  /-- The dot before a member whose type is implied. -/
  | prefixPeriod
  | leftParen
  | rightParen
  | leftBrace
  | rightBrace
  | leftBracket
  | rightBracket
  /-- The bracket that opens generic arguments. -/
  | leftAngle
  /-- The bracket that closes generic arguments. -/
  | rightAngle
  | comma
  | colon
  | semicolon
  | atSign
  | pound
  | backslash
  | unknown
  | eof
  deriving DecidableEq, Repr

namespace Kind

/-- The kind in the words of an error message. -/
def description : Kind → String
  | .keyword k => k.spelling
  | .poundKeyword k => k.spelling
  | .integer _ => "integer"
  | .float => "float"
  | .rawString => "raw string"
  | .stringSegment => "string segment"
  | .quote => "`\"`"
  | .multilineQuote => "`\"\"\"`"
  | .interpolationEnd => "`)`"
  | .identifier | .dollarIdentifier => "identifier"
  | .contextualKeyword => "contextual keyword"
  | .spacedBinary | .unspacedBinary | .prefixOperator | .postfixOperator => "operator"
  | .prefixAmpersand => "`&`"
  | .exclamation => "`!`"
  | .infixQuestion | .postfixQuestion => "`?`"
  | .equal => "`=`"
  | .arrow => "`->`"
  | .period | .prefixPeriod => "`.`"
  | .leftParen => "`(`"
  | .rightParen => "`)`"
  | .leftBrace => "`\x7b`"
  | .rightBrace => "`\x7d`"
  | .leftBracket => "`[`"
  | .rightBracket => "`]`"
  | .leftAngle => "`<`"
  | .rightAngle => "`>`"
  | .comma => "`,`"
  | .colon => "`:`"
  | .semicolon => "`;`"
  | .atSign => "`@`"
  | .pound => "`#`"
  | .backslash => "`\\`"
  | .unknown => "unknown"
  | .eof => "EOF"

/-- The kind by itself: as in a message, with the number sign of a pound keyword and the base of an
integer. -/
def render : Kind → String
  | .poundKeyword k => "#" ++ k.spelling
  | .integer base => "integer(" ++ base.marker ++ ")"
  | kind => kind.description

/-! ## Delimiters -/

/-- Tokens of this kind open a group. -/
def opensGroup : Kind → Bool
  | .leftParen | .leftBrace | .leftBracket => true
  | _ => false

/-- Tokens of this kind close a group. -/
def closesGroup : Kind → Bool
  | .rightParen | .rightBrace | .rightBracket | .interpolationEnd => true
  | _ => false

/-- A group opened by the first kind may be closed by the second. -/
def isClosedBy : Kind → Kind → Bool
  | .leftParen, .rightParen | .leftParen, .interpolationEnd => true
  | .leftBrace, .rightBrace => true
  | .leftBracket, .rightBracket => true
  | _, _ => false

end Kind

end SwiftColoring
