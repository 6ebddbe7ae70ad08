import FieldRules.Datum.Basic
import FieldRules.Text.Word

/-!
# Scopes

A scope answers the selectors of an expression: the current value, and the
fields behind paths.  A field may be asked for by its path alone, or by its
slot in the expression together with its path.
-/

namespace FieldRules

/-- Answers to the selectors of an expression. -/
structure Scope where
  /-- The value of `$`. -/
  current : Datum
  /-- The value of `(path)$`, by the path. -/
  field : String → Datum
  /-- The value of `(path)$`, by the slot of the path in the expression. -/
  fieldAt : Nat → String → Datum

namespace Scope

/-- A scope that answers every path by name. -/
def ofFields (current : Datum) (field : String → Datum) : Scope where
  current
  field
  fieldAt _ path := field path

/-- A scope that only knows the current value. -/
def ofCurrent (current : Datum) : Scope :=
  ofFields current fun _ => .nil

/-- A scope that answers by slot; paths past the end are nil. -/
def ofSlots (current : Datum) (slots : List Datum) : Scope where
  current
  field _ := .nil
  fieldAt slot _ := slots.getD slot .nil

/-- Walk from a datum through the keys of a path, if each of them is there. -/
def walk? (document : Datum) (path : String) : Option Datum :=
  (Text.separate '.' path.toList).foldlM
    (fun datum key => datum.element? (.text (.ofList key))) document

/-- The scope of a datum as a document: `$` is the datum, and paths walk its keys. -/
def ofDocument (document : Datum) : Scope :=
  ofFields document fun path => (walk? document path).getD .nil

end Scope

end FieldRules
