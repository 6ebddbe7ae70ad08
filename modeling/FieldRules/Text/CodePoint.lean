/-!
# Sets of code points

Character classes of the Unicode standard are kept as tables: inclusive ranges
of code points in ascending order.
-/

namespace FieldRules.Text

/-- A set of code points, as inclusive ranges in ascending order. -/
abbrev CodeRanges := List (Nat × Nat)

/-- Whether one of the ranges holds a character. -/
def CodeRanges.holds (ranges : CodeRanges) (c : Char) : Bool :=
  ranges.any fun range => range.1 ≤ c.toNat && c.toNat ≤ range.2

end FieldRules.Text
