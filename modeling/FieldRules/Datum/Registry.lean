import FieldRules.Datum.Basic
import FieldRules.Text.Quoted
import FieldRules.Text.Word

/-!
# Registered predicates

A registry binds names to predicates on data.  A name is an identifier that the
expression language does not use itself; it is bound once, unless a later
registration is forced, which replaces the binding.
-/

namespace FieldRules

open FieldRules.Text (isWord quoted)

/-- A named test of one datum. -/
abbrev Predicate := Datum → Bool

/-- The functions of the expression language. -/
def builtinNames : List String := ["len", "regexp", "sprintf", "in", "range"]

/-- The constants of the expression language. -/
def constantNames : List String := ["true", "false", "nil"]

/-- Whether a name can be bound at all: a word that does not start with a digit. -/
def isBindable (name : String) : Bool :=
  isWord name.toList && !name.toList.head?.any Char.isDigit

/-- Why a registration is refused. -/
inductive RegistrationError where
  | alreadyRegistered (name : String)
  | reserved (name : String)
  | invalidName (name : String)
  deriving Repr, DecidableEq

/-- The message of a refused registration. -/
def RegistrationError.message : RegistrationError → String
  | .alreadyRegistered name => "function " ++ quoted name ++ " is already registered"
  | .reserved name => "function name " ++ quoted name ++ " is reserved for a built-in"
  | .invalidName name => "invalid function name " ++ quoted name

/-- Predicates by name, each name once. -/
structure Registry where
  entries : List (String × Predicate)

namespace Registry

/-- No predicate is registered. -/
def empty : Registry := ⟨[]⟩

/-- The predicate bound to a name. -/
def find? (registry : Registry) (name : String) : Option Predicate :=
  registry.entries.lookup name

/-- Whether a name is bound. -/
def contains (registry : Registry) (name : String) : Bool :=
  (registry.find? name).isSome

/-- Bind a name, whether it is bound or not. -/
def bind (registry : Registry) (name : String) (predicate : Predicate) : Registry :=
  ⟨(name, predicate) :: registry.entries.filter fun entry => entry.1 != name⟩

/-- Register a predicate.  An invalid name is refused first, then a reserved
one, then one that is taken, unless the registration is forced. -/
def register (registry : Registry) (name : String) (predicate : Predicate) (force : Bool) :
    Except RegistrationError Registry :=
  if !isBindable name then .error (.invalidName name)
  else if builtinNames.contains name || constantNames.contains name then .error (.reserved name)
  else if !force && registry.contains name then .error (.alreadyRegistered name)
  else .ok (registry.bind name predicate)

end Registry

end FieldRules
