import SwiftColoring.Unicode.Property
import SwiftColoring.Text.Quoted
import SwiftColoring.Text.JsonString
import SwiftColoring.Text.Lines
import SwiftColoring.Text.Styled
import SwiftColoring.Text.Utf8
import SwiftColoring.Token.Basic
import SwiftColoring.Lexeme.Gap
import SwiftColoring.Lexeme.Number
import SwiftColoring.Lexeme.StringText
import SwiftColoring.Lexeme.Word
import SwiftColoring.Lexeme.GenericArguments
import SwiftColoring.Lexeme.Operator
import SwiftColoring.Lexer.Lexeme
import SwiftColoring.Lexer.TokenStream
import SwiftColoring.Tree.Walk
import SwiftColoring.Drawing.Checked
import SwiftColoring.Drawing.Source
import SwiftColoring.Command.Run
import SwiftColoring.Shell.Call
import SwiftColoring.Main
import SwiftColoring.Proofs.Lossless
import SwiftColoring.Proofs.Balance
import SwiftColoring.Proofs.Literals
import SwiftColoring.Proofs.Coverage
import SwiftColoring.Proofs.Reachable
import SwiftColoring.Proofs.Spelling
import SwiftColoring.Proofs.Nesting
import SwiftColoring.Proofs.ClosingParen
import SwiftColoring.Proofs.Interpolated
import SwiftColoring.Proofs.AngleBrackets
import SwiftColoring.Proofs.Progress
import SwiftColoring.Proofs.Blame
import SwiftColoring.Proofs.SideBySide
import SwiftColoring.Proofs.FinalBreak
import SwiftColoring.Proofs.Blanks
import SwiftColoring.Proofs.Indentation
import SwiftColoring.Proofs.Drawn
import SwiftColoring.Proofs.Lookback
import SwiftColoring.Proofs.Pieces
import SwiftColoring.Proofs.Cutting
import SwiftColoring.Proofs.Canonical
import SwiftColoring.Proofs.Neighbours
import SwiftColoring.Proofs.Binding
import SwiftColoring.Proofs.BlockComment
import SwiftColoring.Proofs.TextUnits
import SwiftColoring.Proofs.AngleScan
import SwiftColoring.Proofs.AngleSearches
import SwiftColoring.Proofs.Words
import SwiftColoring.Proofs.Classes
import SwiftColoring.Proofs.RawStrings
import SwiftColoring.Proofs.Numerals
import SwiftColoring.Proofs.Members
import SwiftColoring.Proofs.Merging
import SwiftColoring.Proofs.Visits
