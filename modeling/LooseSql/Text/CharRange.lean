/-!
# Sets of characters as ranges

A set of code points given by its ranges in ascending order, each with both ends inside.
-/

namespace LooseSql

/-- Ranges of code points, ascending and apart. -/
abbrev CharRanges := List (Nat × Nat)

namespace CharRanges

/-- The code point `n` lies in one of the ranges. The search ends at the first range that
does not lie wholly before `n`. -/
def contains : CharRanges → Nat → Bool
  | [], _ => false
  | (low, high) :: rest, n => if n ≤ high then decide (low ≤ n) else contains rest n

end CharRanges

end LooseSql
