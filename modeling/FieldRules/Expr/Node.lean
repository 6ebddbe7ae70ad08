import FieldRules.Datum.Registry
import FieldRules.Expr.Operator
import FieldRules.Expr.Pattern

/-!
# Expressions

An expression is a tree of operators over operands.  Selectors address data:
the current value, a field of the record by its path, or the element that a
`range` call visits.  Each field path of an expression has a slot, its position
among the distinct paths in the order of their first occurrence.
-/

namespace FieldRules

variable [RegexLibrary]

/-! ## Trees -/

/-- Where a selector starts. -/
inductive Origin where
  /-- `$`: the current value. -/
  | current
  /-- `(path)$`: a field of the record, with the slot of its path. -/
  | field (path : String) (slot : Nat)
  /-- `$k`: the key of the element that is visited. -/
  | key
  /-- `$v`: the value of the element that is visited. -/
  | value
  deriving Repr, DecidableEq

/-- What a call applies: a function of the language, or a predicate bound when
the call was read. -/
inductive Callee where
  | len
  | regexp (pattern : Pattern)
  | sprintf
  | oneOf
  | range
  | predicate (name : String) (holds : Predicate)

/-- A tree of an expression.  Groups and calls with an odd number of `!` in
front of them negate a boolean result. -/
inductive Node where
  | nil
  | bool (b : Bool)
  | number (x : Float)
  | text (s : String)
  | selector (origin : Origin) (subscripts : List Node)
  | group (negate : Bool) (inner : Node)
  | binary (operator : Operator) (left right : Node)
  | call (negate : Bool) (callee : Callee) (arguments : List Node)

instance : Inhabited Node := ⟨.nil⟩

/-- The name that calls a callee. -/
def Callee.name : Callee → String
  | len => "len"
  | regexp _ => "regexp"
  | sprintf => "sprintf"
  | oneOf => "in"
  | range => "range"
  | predicate name _ => name

/-- The path of a field selector. -/
def Origin.path? : Origin → Option String
  | field path _ => some path
  | _ => none

/-- Give a field selector the slot of its path. -/
def Origin.withSlot (slotOf : String → Nat) : Origin → Origin
  | .field path _ => .field path (slotOf path)
  | origin => origin

namespace Node

/-- How tightly a tree binds. -/
def priority : Node → Nat
  | binary operator _ _ => operator.priority
  | _ => operandPriority

/-- The selector `$`. -/
def current : Node := selector .current []

/-! ## Selectors -/

mutual

/-- The selectors of a tree, depth first: a selector comes before those in its
subscripts. -/
def selectors : Node → List (Origin × List Node)
  | selector origin subscripts => (origin, subscripts) :: listSelectors subscripts
  | group _ inner => inner.selectors
  | binary _ left right => left.selectors ++ right.selectors
  | call _ _ arguments => listSelectors arguments
  | _ => []

/-- The selectors of several trees in order. -/
def listSelectors : List Node → List (Origin × List Node)
  | [] => []
  | node :: nodes => node.selectors ++ listSelectors nodes

end

/-- The distinct field paths of a tree in the order of their first occurrence. -/
def fieldPaths (node : Node) : List String :=
  (node.selectors.filterMap (·.1.path?)).eraseDups

/-! ## Slots -/

mutual

/-- Give every field selector of a tree the slot of its path. -/
def withSlots (slotOf : String → Nat) : Node → Node
  | selector origin subscripts => selector (origin.withSlot slotOf) (listWithSlots slotOf subscripts)
  | group negate inner => group negate (inner.withSlots slotOf)
  | binary operator left right =>
      binary operator (left.withSlots slotOf) (right.withSlots slotOf)
  | call negate callee arguments => call negate callee (listWithSlots slotOf arguments)
  | node => node

/-- Give the field selectors of several trees their slots. -/
def listWithSlots (slotOf : String → Nat) : List Node → List Node
  | [] => []
  | node :: nodes => node.withSlots slotOf :: listWithSlots slotOf nodes

end

end Node

/-! ## Expressions -/

/-- An expression: the text it was read from and its tree. -/
structure Expression where
  source : String
  root : Node

namespace Expression

/-- The expression of a tree as it was read; its slots are assigned here. -/
def ofTree (source : String) (tree : Node) : Expression where
  source
  root := tree.withSlots tree.fieldPaths.idxOf

/-- The distinct field paths of an expression; the slot of a selector counts
this list. -/
def fieldPaths (expression : Expression) : List String :=
  expression.root.fieldPaths

end Expression

end FieldRules
