/-!
# Binary operators

Operators bind with one of six priorities; a higher one binds tighter, and
operands bind tightest of all.
-/

namespace FieldRules

/-- A binary operator. -/
inductive Operator where
  | add | sub | mul | div | rem
  | lt | le | gt | ge | eq | ne
  | and | or
  deriving Repr, DecidableEq

namespace Operator

/-- How tightly an operator binds. -/
def priority : Operator → Nat
  | mul | div | rem => 6
  | add | sub => 5
  | lt | le | gt | ge => 4
  | eq | ne => 3
  | and => 2
  | or => 1

/-- The written form of an operator. -/
def symbol : Operator → List Char
  | add => ['+']
  | sub => ['-']
  | mul => ['*']
  | div => ['/']
  | rem => ['%']
  | lt => ['<']
  | le => ['<', '=']
  | gt => ['>']
  | ge => ['>', '=']
  | eq => ['=', '=']
  | ne => ['!', '=']
  | and => ['&', '&']
  | or => ['|', '|']

end Operator

/-- How tightly literals, selectors, groups and calls bind. -/
def operandPriority : Nat := 7

/-- Every operator binds less tightly than an operand. -/
theorem Operator.priority_lt_operandPriority (operator : Operator) :
    operator.priority < operandPriority := by
  cases operator <;> decide

end FieldRules
