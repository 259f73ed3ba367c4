/-!
# Ranges of characters

A property of characters is a table of ranges of code points, ascending and disjoint. Membership
halves the table until a single range is left.
-/

namespace TreeScript.Text

/-- Ranges of code points, ends included, in ascending order and without overlap. -/
abbrev Ranges := Array (Nat × Nat)

namespace Ranges

/-- Looks for `n` among the ranges at `lo` up to, not including, `hi`. -/
def containsBetween (ranges : Ranges) (n lo hi : Nat) : Bool :=
  if lo < hi then
    let mid := (lo + hi) / 2
    match ranges[mid]? with
    | none => false
    | some (first, last) =>
      if n < first then containsBetween ranges n lo mid
      else if last < n then containsBetween ranges n (mid + 1) hi
      else true
  else
    false
termination_by hi - lo

/-- Whether a range of the table holds the code point of `c`. -/
def contains (ranges : Ranges) (c : Char) : Bool :=
  ranges.containsBetween c.toNat 0 ranges.size

end Ranges

end TreeScript.Text
