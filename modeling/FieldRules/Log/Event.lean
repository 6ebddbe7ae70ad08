import FieldRules.Record.Basic

/-!
# Log events

What compiling, caching, evaluating and validating report while they work.  An
event is shown with a level, a domain, a message and fields in a fixed order.
-/

namespace FieldRules

/-- How grave an event is. -/
inductive Level where
  | trace
  | debug
  | info
  | warn
  | error
  deriving Repr, DecidableEq

/-- The word for a level. -/
def Level.name : Level → String
  | trace => "TRACE"
  | debug => "DEBUG"
  | info => "INFO"
  | warn => "WARN"
  | error => "ERROR"

/-- The rank of a level; graver levels have higher ranks. -/
def Level.rank : Level → Nat
  | trace => 0
  | debug => 1
  | info => 2
  | warn => 3
  | error => 4

/-- Something worth reporting. -/
inductive Event where
  /-- A nested record type was already being expanded. -/
  | recursionNotExpanded (type : RecordType) (path : String)
  /-- An annotation cannot be compiled. -/
  | annotationRejected (type : RecordType) (field : String) (detail : String)
  /-- A record type has been compiled. -/
  | programCompiled (type : RecordType) (fields expressions : Nat)
  /-- A program has entered a cache. -/
  | programPublished (type : RecordType) (programs buckets : Nat)
  /-- No expression has this selector. -/
  | noExpression (type : RecordType) (selector : String)
  /-- A rule does not hold. -/
  | ruleFailed (field selector : String)
  /-- A predicate has been registered. -/
  | functionRegistered (name : String) (force : Bool)
  /-- An expression has been read from the command line. -/
  | expressionRead (tree : String)
  deriving Repr, DecidableEq

namespace Event

/-- The level of an event. -/
def level : Event → Level
  | recursionNotExpanded _ _ => .trace
  | annotationRejected _ _ _ => .warn
  | programCompiled _ _ _ => .debug
  | programPublished _ _ _ => .debug
  | noExpression _ _ => .trace
  | ruleFailed _ _ => .debug
  | functionRegistered _ _ => .debug
  | expressionRead _ => .debug

/-- The activity that reports an event. -/
def domain : Event → String
  | recursionNotExpanded _ _ => "compile"
  | annotationRejected _ _ _ => "compile"
  | programCompiled _ _ _ => "compile"
  | programPublished _ _ _ => "cache"
  | noExpression _ _ => "eval"
  | ruleFailed _ _ => "valid"
  | functionRegistered _ _ => "compile"
  | expressionRead _ => "cli"

/-- The message of an event. -/
def message : Event → String
  | recursionNotExpanded _ _ => "recursive record not expanded"
  | annotationRejected _ _ _ => "annotation rejected"
  | programCompiled _ _ _ => "program compiled"
  | programPublished _ _ _ => "program published"
  | noExpression _ _ => "no compiled expression"
  | ruleFailed _ _ => "rule failed"
  | functionRegistered _ _ => "function registered"
  | expressionRead _ => "expression parsed"

/-- The fields of an event. -/
def fields : Event → List (String × String)
  | recursionNotExpanded type path => [("ty", type.name), ("path", path)]
  | annotationRejected type field detail =>
      [("ty", type.name), ("field", field), ("error", detail)]
  | programCompiled type fields expressions =>
      [("ty", type.name), ("fields", toString fields), ("exprs", toString expressions)]
  | programPublished type programs buckets =>
      [("ty", type.name), ("programs", toString programs), ("buckets", toString buckets)]
  | noExpression type selector => [("ty", type.name), ("selector", selector)]
  | ruleFailed field selector => [("field", field), ("selector", selector)]
  | functionRegistered name force =>
      [("function", name), ("force", if force then "true" else "false")]
  | expressionRead tree => [("tree", tree)]

end Event

end FieldRules
