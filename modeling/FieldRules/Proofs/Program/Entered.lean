import FieldRules.Proofs.Program.Flatten

/-!
# Record types that flattening goes into

Flattening goes from the fields of a record type into the types nested in it,
except for those that it is expanding already.  It succeeds exactly when each type
that it goes into describes its fields under valid and unique names.  When it fails,
it says what is wrong with the names of one of these types, or one of their
descriptions breaks off.
-/

namespace FieldRules

/-! ## Entered types -/

/-- From declared fields, with the types of `stack` being expanded, a record type is
entered. -/
inductive Enters (catalog : Catalog) : List RecordType → List FieldSpec → RecordType → Prop
  | nested {stack : List RecordType} {specs : List FieldSpec} {spec : FieldSpec}
      {target : RecordType} (mem : spec ∈ specs) (nests : spec.nested = some target)
      (fresh : target ∉ stack) : Enters catalog stack specs target
  | deeper {stack : List RecordType} {specs : List FieldSpec} {spec : FieldSpec}
      {target type : RecordType} (mem : spec ∈ specs) (nests : spec.nested = some target)
      (fresh : target ∉ stack)
      (inside : Enters catalog (target :: stack) (catalog.fields target) type) :
      Enters catalog stack specs type

variable {catalog : Catalog} {stack : List RecordType} {spec : FieldSpec}
  {specs more : List FieldSpec} {chains : List FieldChain} {type target : RecordType}

theorem Enters.mono (enters : Enters catalog stack specs type) (subset : specs ⊆ more) :
    Enters catalog stack more type := by
  cases enters with
  | nested mem nests fresh => exact .nested (subset mem) nests fresh
  | deeper mem nests fresh inside => exact .deeper (subset mem) nests fresh inside

/-- What is entered from a field and others is entered from one of them. -/
theorem enters_cons_iff :
    Enters catalog stack (spec :: specs) type ↔
      (∃ target, spec.nested = some target ∧ target ∉ stack ∧
        (type = target ∨ Enters catalog (target :: stack) (catalog.fields target) type)) ∨
      Enters catalog stack specs type := by
  constructor
  · intro enters
    cases enters with
    | nested mem nests fresh =>
        rcases List.mem_cons.mp mem with rfl | mem
        · exact .inl ⟨_, nests, fresh, .inl rfl⟩
        · exact .inr (.nested mem nests fresh)
    | deeper mem nests fresh inside =>
        rcases List.mem_cons.mp mem with rfl | mem
        · exact .inl ⟨_, nests, fresh, .inr inside⟩
        · exact .inr (.deeper mem nests fresh inside)
  · rintro (⟨target, nests, fresh, rfl | inside⟩ | enters)
    · exact .nested List.mem_cons_self nests fresh
    · exact .deeper List.mem_cons_self nests fresh inside
    · exact enters.mono (List.subset_cons_self _ _)

theorem not_enters_nil : ¬ Enters catalog stack [] type := by
  rintro (mem | mem) <;> cases mem

namespace Catalog

/-- The fields of a type are described under valid and unique names. -/
def DescribesWell (catalog : Catalog) (type : RecordType) : Prop :=
  ∃ specs, catalog.describe type = .fields specs ∧ WellNamed specs

/-- A record type is expanded when `root` is flattened. -/
def Expanded (catalog : Catalog) (root type : RecordType) : Prop :=
  type = root ∨ Enters catalog [root] (catalog.fields root) type

/-- No description of an expanded type breaks off. -/
def Described (catalog : Catalog) (root : RecordType) : Prop :=
  ∀ type, catalog.Expanded root type → catalog.describe type ≠ .aborted

/-- The names of fields are valid and unique in every expanded type. -/
def Named (catalog : Catalog) (root : RecordType) : Prop :=
  ∀ type, catalog.Expanded root type → WellNamed (catalog.fields type)

theorem describesWell_iff :
    catalog.DescribesWell type ↔
      catalog.describe type ≠ .aborted ∧ WellNamed (catalog.fields type) := by
  rw [DescribesWell, fields]
  cases catalog.describe type with
  | aborted => simp
  | fields specs => simp

end Catalog

open Catalog

/-! ## Success -/

/-- Types that are entered from expanded fields are described well. -/
theorem Expands.describesWell_of_enters (expands : Expands catalog stack specs chains)
    (enters : Enters catalog stack specs type) : catalog.DescribesWell type := by
  induction expands with
  | nil => exact absurd enters not_enters_nil
  | closed closed _ ih =>
      rcases enters_cons_iff.mp enters with ⟨target, nests, fresh, -⟩ | later
      · exact absurd (closed target nests) fresh
      · exact ih later
  | opened nests _ described named _ _ innerIH ih =>
      rcases enters_cons_iff.mp enters with ⟨target, nests', -, here⟩ | later
      · obtain rfl := Option.some.inj (nests'.symm.trans nests)
        rcases here with rfl | inside
        · exact ⟨_, described, named⟩
        · rw [fields_of_describe described] at inside
          exact innerIH inside
      · exact ih later

/-- Fields can be expanded if the types entered from them are described well: each
type that is entered leaves fewer types. -/
theorem exists_expands_of_enters
    (well : ∀ type, Enters catalog stack specs type → catalog.DescribesWell type) :
    ∃ chains, Expands catalog stack specs chains := by
  induction count : (catalog.outside stack).length using Nat.strong_induction_on
    generalizing stack specs with
  | _ count outer =>
  induction specs with
  | nil => exact ⟨[], .nil⟩
  | cons spec specs ih =>
      rcases ih fun type enters => well type (enters_cons_iff.mpr (.inr enters)) with
        ⟨rest, others⟩
      cases nests : spec.nested with
      | none => exact ⟨_, .closed (by simp [nests]) others⟩
      | some target =>
          by_cases onStack : target ∈ stack
          · refine ⟨_, .closed (fun other same => ?_) others⟩
            obtain rfl : target = other := Option.some.inj (nests.symm.trans same)
            exact onStack
          · have here (type : RecordType) (entered : type = target ∨
                Enters catalog (target :: stack) (catalog.fields target) type) :
                catalog.DescribesWell type :=
              well type (enters_cons_iff.mpr (.inl ⟨target, nests, onStack, entered⟩))
            rcases here target (.inl rfl) with ⟨nested, described, named⟩
            cases nested with
            | nil => exact ⟨_, .opened nests onStack described named .nil others⟩
            | cons first nested =>
                have fewer := outside_length_lt_of_describe described onStack
                have inside (type : RecordType)
                    (entered : Enters catalog (target :: stack) (first :: nested) type) :
                    catalog.DescribesWell type := by
                  rw [← fields_of_describe described] at entered
                  exact here type (.inr entered)
                rcases outer _ (count ▸ fewer) inside rfl with ⟨inner, expanded⟩
                exact ⟨_, .opened nests onStack described named expanded others⟩

/-- A record type can be flattened exactly if the types that are expanded for it are
described, with valid and unique names. -/
theorem exists_flat_iff {tag : String} {root : RecordType} :
    (∃ flat, (catalog.flatten tag root).outcome = .ok flat) ↔
      catalog.Described root ∧ catalog.Named root := by
  have split : catalog.Described root ∧ catalog.Named root ↔
      ∀ type, catalog.Expanded root type → catalog.DescribesWell type := by
    simp only [Described, Named, describesWell_iff, ← forall_and]
  rw [split]
  constructor
  · rintro ⟨flat, flattened⟩ type expanded
    rcases flatten_eq_ok_iff.mp flattened with ⟨specs, described, named, chains, expands, -⟩
    rcases expanded with rfl | enters
    · exact ⟨specs, described, named⟩
    · rw [fields_of_describe described] at enters
      exact expands.describesWell_of_enters enters
  · intro well
    rcases well root (.inl rfl) with ⟨specs, described, named⟩
    have entered (type : RecordType) (enters : Enters catalog [root] specs type) :
        catalog.DescribesWell type := by
      rw [← fields_of_describe described] at enters
      exact well type (.inr enters)
    rcases exists_expands_of_enters entered with ⟨chains, expands⟩
    exact ⟨_, flatten_eq_ok_iff.mpr ⟨specs, described, named, chains, expands, rfl⟩⟩

/-! ## Failure -/

/-- What an error says about declared fields: the name of one of them is not a word,
or is the name of a field before it. -/
def SchemaError.AppliesTo (specs : List FieldSpec) : SchemaError → Prop
  | .invalidName name => ∃ spec ∈ specs, spec.name = name ∧ Text.isWord name.toList = false
  | .duplicateName name _ => ∃ before spec after, specs = before ++ spec :: after ∧
      spec.name = name ∧ name ∈ before.map FieldSpec.name

variable {tag : String} {root : RecordType} {owner : List String}
  {reach : Instance → Option Instance} {earlier : List String} {error : CompileError}

/-- Flattening fields fails at the first of them, in its record type, or behind it. -/
theorem flattenFields_cons_eq_error
    (failed : (catalog.flattenFields tag root stack owner reach earlier (spec :: specs)).outcome =
      .error error) :
    (Text.isWord spec.name.toList = false ∧ error = .schema root (.invalidName spec.name)) ∨
    (spec.name ∈ earlier ∧ error = .schema root (.duplicateName spec.name (dotted owner))) ∨
    (∃ target, spec.nested = some target ∧ target ∉ stack ∧
      (catalog.describe target = .aborted ∧ error = .aborted ∨
        ∃ nested, catalog.describe target = .fields nested ∧
          (catalog.flattenFields tag root (target :: stack) (owner ++ [spec.name])
            (reachNested reach spec target) [] nested).outcome = .error error)) ∨
    (catalog.flattenFields tag root stack owner reach (spec.name :: earlier) specs).outcome =
      .error error := by
  rw [flattenFields] at failed
  by_cases valid : Text.isWord spec.name.toList = true
  · by_cases again : spec.name ∈ earlier
    · have seen : earlier.contains spec.name = true := by simpa using again
      simp only [valid, seen, Bool.not_true, Bool.false_eq_true, if_false, if_true,
        Logged.outcome_fail] at failed
      cases failed
      exact .inr (.inl ⟨again, rfl⟩)
    · have unseen : earlier.contains spec.name = false := by simpa using again
      simp only [valid, unseen, Bool.not_true, Bool.false_eq_true, if_false] at failed
      rcases Logged.outcome_bind_eq_error_iff.mp failed with inside | ⟨inner, -, behind⟩
      · right; right; left
        cases nests : spec.nested with
        | none =>
            rw [nests] at inside
            cases inside
        | some target =>
            simp only [nests] at inside
            split_ifs at inside with onStack
            · cases inside
            · refine ⟨target, rfl, onStack, ?_⟩
              split at inside
              · cases inside
              · rename_i listed
                cases inside
                exact .inl ⟨by simp [describe, listed], rfl⟩
              · rename_i nested listed
                exact .inr ⟨nested, by simp [describe, listed], inside⟩
      · rcases Logged.outcome_bind_eq_error_iff.mp behind with behind | ⟨rest, -, done⟩
        · exact .inr (.inr (.inr behind))
        · cases done
  · have invalid : Text.isWord spec.name.toList = false := by simpa using valid
    simp only [invalid, Bool.not_false, if_true, Logged.outcome_fail] at failed
    cases failed
    exact .inl ⟨invalid, rfl⟩

/-- What flattening fails with: a description of an entered type breaks off, or
something is wrong with the names of the fields `all` of the record itself or with
those of an entered type. -/
inductive Refused (catalog : Catalog) (root : RecordType) (stack : List RecordType)
    (specs all : List FieldSpec) : CompileError → Prop
  | aborted {type : RecordType} (enters : Enters catalog stack specs type)
      (breaksOff : catalog.describe type = .aborted) : Refused catalog root stack specs all .aborted
  | here {reason : SchemaError} (applies : reason.AppliesTo all) :
      Refused catalog root stack specs all (.schema root reason)
  | inside {type : RecordType} {reason : SchemaError} (enters : Enters catalog stack specs type)
      (applies : reason.AppliesTo (catalog.fields type)) :
      Refused catalog root stack specs all (.schema root reason)

variable {all nested previous : List FieldSpec}

theorem Refused.cons (refused : Refused catalog root stack specs all error) :
    Refused catalog root stack (spec :: specs) all error := by
  cases refused with
  | aborted enters breaksOff => exact .aborted (enters_cons_iff.mpr (.inr enters)) breaksOff
  | here applies => exact .here applies
  | inside enters applies => exact .inside (enters_cons_iff.mpr (.inr enters)) applies

/-- What is refused in the record type of a field is refused inside the record. -/
theorem Refused.of_nested (nests : spec.nested = some target) (fresh : target ∉ stack)
    (described : catalog.describe target = .fields nested)
    (refused : Refused catalog root (target :: stack) nested nested error) :
    Refused catalog root stack (spec :: specs) all error := by
  have entered {type : RecordType} (enters : Enters catalog (target :: stack) nested type) :
      Enters catalog stack (spec :: specs) type := by
    rw [← fields_of_describe described] at enters
    exact .deeper List.mem_cons_self nests fresh enters
  cases refused with
  | aborted enters breaksOff => exact .aborted (entered enters) breaksOff
  | here applies =>
      rw [← fields_of_describe described] at applies
      exact .inside (.nested List.mem_cons_self nests fresh) applies
  | inside enters applies => exact .inside (entered enters) applies

/-- Flattening fields, with `previous` being those before them, fails for one of the
reasons that there are. -/
theorem refused_of_flattenFields
    (seen : ∀ name ∈ earlier, name ∈ previous.map FieldSpec.name)
    (failed : (catalog.flattenFields tag root stack owner reach earlier specs).outcome =
      .error error) :
    Refused catalog root stack specs (previous ++ specs) error := by
  induction count : (catalog.outside stack).length using Nat.strong_induction_on
    generalizing stack owner reach earlier specs previous with
  | _ count outer =>
  induction specs generalizing earlier previous with
  | nil =>
      rw [flattenFields] at failed
      cases failed
  | cons spec specs ih =>
      rcases flattenFields_cons_eq_error failed with ⟨invalid, rfl⟩ | ⟨again, rfl⟩ |
        ⟨target, nests, fresh, ⟨breaksOff, rfl⟩ | ⟨nested, described, inside⟩⟩ | behind
      · exact .here ⟨spec, List.mem_append_right _ List.mem_cons_self, rfl, invalid⟩
      · exact .here ⟨previous, spec, specs, rfl, rfl, seen _ again⟩
      · exact .aborted (.nested List.mem_cons_self nests fresh) breaksOff
      · cases nested with
        | nil =>
            rw [flattenFields] at inside
            cases inside
        | cons first nested =>
            have fewer := outside_length_lt_of_describe described fresh
            have unseen : ∀ name ∈ [], name ∈ ([] : List FieldSpec).map FieldSpec.name :=
              List.forall_mem_nil _
            have refused := outer _ (count ▸ fewer) unseen inside rfl
            exact .of_nested nests fresh described refused
      · have seen (name : String) (mem : name ∈ spec.name :: earlier) :
            name ∈ (previous ++ [spec]).map FieldSpec.name := by
          rw [List.map_append, List.mem_append]
          rcases List.mem_cons.mp mem with rfl | mem
          · exact .inr (List.mem_singleton.mpr rfl)
          · exact .inl (seen name mem)
        have refused := ih seen behind
        rw [List.append_assoc, List.singleton_append] at refused
        exact refused.cons

/-- Flattening a record type fails if the description of an expanded type breaks off,
or with what is wrong with the names in an expanded type. -/
theorem eq_aborted_or_schema_of_flatten
    (failed : (catalog.flatten tag root).outcome = .error error) :
    (error = .aborted ∧ ¬ catalog.Described root) ∨ ∃ reason type,
      error = .schema root reason ∧ catalog.Expanded root type ∧
        reason.AppliesTo (catalog.fields type) := by
  rw [flatten] at failed
  split at failed
  · rename_i breaksOff
    cases failed
    exact .inl ⟨rfl, fun described => described root (.inl rfl) breaksOff⟩
  · rename_i specs described
    have fields := fields_of_describe described
    have unseen : ∀ name ∈ [], name ∈ ([] : List FieldSpec).map FieldSpec.name :=
      List.forall_mem_nil _
    have refused := refused_of_flattenFields unseen failed
    rw [List.nil_append, ← fields] at refused
    cases refused with
    | aborted enters breaksOff =>
        exact .inl ⟨rfl, fun described => described _ (.inr enters) breaksOff⟩
    | here applies => exact .inr ⟨_, root, rfl, .inl rfl, applies⟩
    | inside enters applies => exact .inr ⟨_, _, rfl, .inr enters, applies⟩

end FieldRules
