/-!
# Sets of code points as ranges

A Unicode property is a set of code points. It is stored as the list of its maximal runs, each a pair
of its first and last member, in increasing order. Membership asks whether some run covers the point.
-/

namespace SwiftColoring.Unicode

/-- Closed runs of code points, the first and the last member of each. -/
abbrev CodeRanges := List (Nat × Nat)

/-- Some run of the list holds the code point. -/
def CodeRanges.covers (ranges : CodeRanges) (code : Nat) : Bool :=
  ranges.any fun run => run.1 ≤ code && code ≤ run.2

end SwiftColoring.Unicode
