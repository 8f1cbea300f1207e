/-!
# Hexadecimal numerals

Lowercase hexadecimal digits of a number, as they stand in escapes.
-/

namespace SwiftColoring.Hex

/-- The numeral of a number, without leading zeros. -/
def digits (n : Nat) : List Char := Nat.toDigits 16 n

/-- The numeral with zeros in front up to a width. -/
def padded (width n : Nat) : List Char :=
  List.replicate (width - (digits n).length) '0' ++ digits n

end SwiftColoring.Hex
