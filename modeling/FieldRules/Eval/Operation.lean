import FieldRules.Datum.Basic
import FieldRules.Expr.Operator
import FieldRules.Number.Numeral
import FieldRules.Text.Blank

/-!
# What operators do to data

Operators never fail.  Numbers add and strings join; other sums are their right
operand.  The other arithmetic operators turn their operands into numbers,
orderings hold between two numbers or two strings only, and the logical
operators look at the truth of both operands.
-/

namespace FieldRules

/-- The number that an operand of `- * / %` stands for: texts are read as
numbers, booleans count as one and zero, and everything else is zero. -/
def Datum.toNumber : Datum → Float
  | .number x => x
  | .bool b => if b then 1 else 0
  | .text s => (Number.ofText? (Text.trim s.toList)).getD 0
  | _ => 0

/-- Numbers add, strings join, and any other sum is its right operand. -/
def Datum.plus : Datum → Datum → Datum
  | .number x, .number y => .number (x + y)
  | .text s, .text t => .text (s ++ t)
  | _, right => right

/-- The quotient; division by zero is undefined. -/
def Number.divide (x y : Float) : Float :=
  if y == 0 then Number.undefined else x / y

/-- The remainder of the integer parts, as signed words, with the sign of the
dividend; a divisor without integer part makes it undefined. -/
def Number.remainder (x y : Float) : Float :=
  let divisor := Number.toWord y
  if divisor = 0 then Number.undefined
  else Number.ofInt ((Number.toWord x).tmod divisor)

/-- Equality of data: scalars of one type with the same value. -/
def Datum.same : Datum → Datum → Bool
  | .number x, .number y => x == y
  | .text s, .text t => s == t
  | .bool b, .bool c => b == c
  | .nil, .nil => true
  | _, _ => false

/-- Whether one of two numbers or two strings precedes the other. -/
def Datum.precedes : Datum → Datum → Bool
  | .number x, .number y => x < y
  | .text s, .text t => s < t
  | _, _ => false

/-- Whether one of two numbers or two strings precedes or equals the other. -/
def Datum.precedesOrSame : Datum → Datum → Bool
  | .number x, .number y => x ≤ y
  | .text s, .text t => s < t || s == t
  | _, _ => false

/-- The result of an operator on two data. -/
def Operator.apply : Operator → Datum → Datum → Datum
  | add, left, right => left.plus right
  | sub, left, right => .number (left.toNumber - right.toNumber)
  | mul, left, right => .number (left.toNumber * right.toNumber)
  | div, left, right => .number (Number.divide left.toNumber right.toNumber)
  | rem, left, right => .number (Number.remainder left.toNumber right.toNumber)
  | lt, left, right => .bool (left.precedes right)
  | le, left, right => .bool (left.precedesOrSame right)
  | gt, left, right => .bool (right.precedes left)
  | ge, left, right => .bool (right.precedesOrSame left)
  | eq, left, right => .bool (left.same right)
  | ne, left, right => .bool (!left.same right)
  | and, left, right => .bool (left.truthy && right.truthy)
  | or, left, right => .bool (left.truthy || right.truthy)

/-- `!` exchanges the truth values and leaves every other datum alone. -/
def Datum.negateIf (negate : Bool) : Datum → Datum
  | .bool b => .bool (b != negate)
  | datum => datum

end FieldRules
