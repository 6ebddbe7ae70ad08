import FieldRules.Datum.Basic
import FieldRules.Record.Basic

/-!
# Instances

An instance of a record type holds entries: plain data, and instances of other
types.  Reading a field never fails: what is not there, or is of another type
than expected, is nil.
-/

namespace FieldRules

/-- What an instance holds under a name. -/
inductive Entry where
  | plain (datum : Datum)
  | nested (type : RecordType) (entries : List (String × Entry))

instance : Inhabited Entry := ⟨.plain .nil⟩

/-- An instance of a record type. -/
structure Instance where
  type : RecordType
  entries : List (String × Entry)

namespace Instance

/-- The instance itself, if it has a given type. -/
def as? (type : RecordType) (inst : Instance) : Option Instance :=
  if inst.type = type then some inst else none

/-- The datum under a name: nested instances are opaque. -/
def datum (inst : Instance) (name : String) : Datum :=
  match inst.entries.lookup name with
  | some (.plain datum) => datum
  | some (.nested _ _) => .record
  | none => .nil

/-- The nested instance of a given type under a name. -/
def enter? (name : String) (target : RecordType) (inst : Instance) : Option Instance :=
  match inst.entries.lookup name with
  | some (.nested type entries) => as? target ⟨type, entries⟩
  | _ => none

end Instance

/-- The datum of a declared field.  A record field shows a record only if the
instance holds one of the declared type. -/
def FieldSpec.read (spec : FieldSpec) (inst : Instance) : Datum :=
  match spec.nested with
  | none => inst.datum spec.name
  | some target => if (inst.enter? spec.name target).isSome then .record else .nil

end FieldRules
