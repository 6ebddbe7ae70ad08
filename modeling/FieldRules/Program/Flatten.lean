import FieldRules.Log.Logged
import FieldRules.Program.CompileError
import FieldRules.Record.Instance
import FieldRules.Text.Word

/-!
# Flat fields

The fields of a record type and of the records nested in it, depth first: a
field comes before the fields of its record.  A record type that is already
being expanded is not expanded again, so that the fields are finite in number
even where record types contain each other.
-/

namespace FieldRules

/-- A field of a record type or of a record nested in it. -/
structure FlatField where
  /-- The names that lead to the record with the field. -/
  owner : List String
  name : String
  /-- The datum of the field in an instance of the record type. -/
  read : Instance → Datum
  /-- The text of the annotation. -/
  source : Option String

/-- The path of the record with the field, empty for the record type itself. -/
def FlatField.ownerPath (field : FlatField) : String :=
  dotted field.owner

/-- The path of a field. -/
def FlatField.path (field : FlatField) : String :=
  dotted (field.owner ++ [field.name])

namespace Catalog

/-- Expanding a listed type leaves fewer listed types. -/
theorem outside_length_lt {catalog : Catalog} {type : RecordType} {types : List RecordType}
    {description : Description} (listed : catalog.find? type = some description)
    (fresh : type ∉ types) :
    (catalog.outside (type :: types)).length < (catalog.outside types).length := by
  have mem : type ∈ catalog.entries.map (·.1) := by
    rw [find?, List.lookup_eq_some_iff] at listed
    obtain ⟨before, after, split, _⟩ := listed
    simp [split]
  have sublist : catalog.outside (type :: types) =
      (catalog.outside types).filter (· ≠ type) := by
    simp [outside, List.filter_filter]
  rw [sublist]
  refine List.length_filter_lt_length_iff_exists.mpr ⟨type, ?_, by simp⟩
  simp [outside, fresh, List.mem_filter] at mem ⊢
  exact mem

/-- How a nested record is reached through the record that holds it. -/
def reachNested (reach : Instance → Option Instance) (spec : FieldSpec) (target : RecordType)
    (inst : Instance) : Option Instance :=
  (reach inst).bind (·.enter? spec.name target)

/-- The flat field of a declared field. -/
def flatField (tag : String) (owner : List String) (reach : Instance → Option Instance)
    (spec : FieldSpec) : FlatField where
  owner
  name := spec.name
  read inst := ((reach inst).map spec.read).getD .nil
  source := spec.tagged? tag

/-- Flatten the declared fields of a record.  `stack` holds the types that are
being expanded, `owner` the names that lead to the record, `reach` finds it in
an instance, and `earlier` holds the names declared before. -/
def flattenFields (catalog : Catalog) (tag : String) (root : RecordType)
    (stack : List RecordType) (owner : List String) (reach : Instance → Option Instance)
    (earlier : List String) : List FieldSpec → Logged CompileError (List FlatField)
  | [] => pure []
  | spec :: specs =>
      if !Text.isWord spec.name.toList then .fail (.schema root (.invalidName spec.name))
      else if earlier.contains spec.name then
        .fail (.schema root (.duplicateName spec.name (dotted owner)))
      else do
        let field := flatField tag owner reach spec
        let inner ← (match spec.nested with
          | none => pure []
          | some target =>
              if _visited : target ∈ stack then do
                .report (.recursionNotExpanded target field.path)
                pure []
              else
                match _listed : catalog.find? target with
                | none => pure []
                | some .aborted => .fail .aborted
                | some (.fields nested) =>
                    flattenFields catalog tag root (target :: stack) (owner ++ [spec.name])
                      (reachNested reach spec target) [] nested)
        let rest ← flattenFields catalog tag root stack owner reach (spec.name :: earlier) specs
        pure (field :: inner ++ rest)
  termination_by specs => ((catalog.outside stack).length, specs.length)
  decreasing_by
    · exact .left _ _ (outside_length_lt _listed _visited)
    · exact .right _ (by simp)

/-- The flat fields of a record type. -/
def flatten (catalog : Catalog) (tag : String) (root : RecordType) :
    Logged CompileError (List FlatField) :=
  match catalog.describe root with
  | .aborted => .fail .aborted
  | .fields specs => catalog.flattenFields tag root [root] [] (Instance.as? root) [] specs

end Catalog

end FieldRules
