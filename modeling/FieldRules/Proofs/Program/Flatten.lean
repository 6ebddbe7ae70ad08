import FieldRules.Proofs.Outcome
import FieldRules.Proofs.Program.Chains

/-!
# Flat fields are chains

Flattening succeeds exactly when all names that it meets are valid and unique in
their record, and then yields the fields at the ends of the expanded chains.
-/

namespace FieldRules

/-- The flat field at the end of a chain that starts in a record. -/
def FieldChain.flatField (tag : String) (owner : List String)
    (reach : Instance → Option Instance) : FieldChain → FlatField
  | .field spec => Catalog.flatField tag owner reach spec
  | .through spec target chain =>
      chain.flatField tag (owner ++ [spec.name]) (Catalog.reachNested reach spec target)

/-- The names that lead to a flat field, its own last. -/
def FlatField.names (field : FlatField) : List String :=
  field.owner ++ [field.name]

theorem FieldChain.names_flatField (tag : String) (owner : List String)
    (reach : Instance → Option Instance) (chain : FieldChain) :
    (chain.flatField tag owner reach).names = owner ++ chain.names := by
  induction chain generalizing owner reach with
  | field spec => rfl
  | through spec target chain ih => simp [flatField, names, ih]

theorem FieldChain.path_flatField (chain : FieldChain) (tag : String)
    (reach : Instance → Option Instance) :
    (chain.flatField tag [] reach).path = dotted chain.names :=
  congrArg dotted (chain.names_flatField tag [] reach)

namespace Catalog

variable {catalog : Catalog} {tag : String} {root : RecordType} {stack : List RecordType}
  {owner : List String} {reach : Instance → Option Instance} {earlier : List String}
  {specs : List FieldSpec} {flat : List FlatField}

/-- A declared field is flattened together with the fields of its record type,
unless that type is being expanded. -/
theorem flattenFields_cons_eq_ok_iff {spec : FieldSpec} :
    (catalog.flattenFields tag root stack owner reach earlier (spec :: specs)).outcome = .ok flat ↔
      Text.isWord spec.name.toList = true ∧ spec.name ∉ earlier ∧ ∃ inner rest,
        ((∀ target, spec.nested = some target → target ∈ stack) ∧ inner = [] ∨
          ∃ target nested, spec.nested = some target ∧ target ∉ stack ∧
            catalog.describe target = .fields nested ∧
              (catalog.flattenFields tag root (target :: stack) (owner ++ [spec.name])
                (reachNested reach spec target) [] nested).outcome = .ok inner) ∧
          (catalog.flattenFields tag root stack owner reach (spec.name :: earlier) specs).outcome =
            .ok rest ∧
          flat = flatField tag owner reach spec :: inner ++ rest := by
  rw [flattenFields]
  by_cases valid : Text.isWord spec.name.toList = true
  · by_cases again : spec.name ∈ earlier
    · simp [valid, again]
    · have unseen : earlier.contains spec.name = false := by simpa using again
      simp only [valid, unseen, Bool.not_true, Bool.false_eq_true, if_false, true_and, again,
        not_false_eq_true, Logged.outcome_bind_eq_ok_iff, Logged.outcome_pure]
      refine exists_congr fun inner => (and_congr ?_ ?_).trans exists_and_left.symm
      · cases nests : spec.nested with
        | none => simp [eq_comm]
        | some target =>
            by_cases onStack : target ∈ stack
            · simp [onStack, Except.bind, eq_comm]
            · simp only [onStack, dite_false, Option.some.injEq, forall_eq', false_and, false_or]
              split
              · rename_i listed
                simp [describe, listed, onStack, flattenFields]
              · rename_i listed
                simp [describe, listed]
              · rename_i nested listed
                simp [describe, listed, onStack]
      · refine exists_congr fun rest => and_congr_right fun _ => ?_
        rw [Except.ok.injEq, eq_comm]
  · simp [valid]

/-- A type that is not listed has no fields. -/
theorem listed_of_describe {type : RecordType} {spec : FieldSpec}
    (described : catalog.describe type = .fields (spec :: specs)) :
    catalog.find? type = some (.fields (spec :: specs)) := by
  rw [describe] at described
  cases listed : catalog.find? type with
  | none => simp [listed] at described
  | some description => simpa [listed] using described

/-- Expanding a type with fields leaves fewer types to expand. -/
theorem outside_length_lt_of_describe {type : RecordType} {spec : FieldSpec}
    (described : catalog.describe type = .fields (spec :: specs)) (fresh : type ∉ stack) :
    (catalog.outside (type :: stack)).length < (catalog.outside stack).length :=
  outside_length_lt (listed_of_describe described) fresh

/-- The names of fields are valid and unique, also among names declared earlier,
when each is valid and new. -/
theorem wellNamed_and_unseen_cons_iff {spec : FieldSpec} :
    (WellNamed (spec :: specs) ∧ ∀ other ∈ spec :: specs, other.name ∉ earlier) ↔
      Text.isWord spec.name.toList = true ∧ spec.name ∉ earlier ∧ WellNamed specs ∧
        ∀ other ∈ specs, other.name ∉ spec.name :: earlier := by
  rw [wellNamed_cons_iff, List.forall_mem_cons]
  simp only [List.mem_cons, not_or, forall_and]
  constructor
  · rintro ⟨⟨word, different, named⟩, unseen, apart⟩
    exact ⟨word, unseen, named, different, apart⟩
  · rintro ⟨word, unseen, named, different, apart⟩
    exact ⟨⟨word, different, named⟩, unseen, apart⟩

/-- Flattening succeeds only if the names are valid and unique, with the flat
fields of the expanded chains. -/
theorem expands_of_flattenFields
    (success : (catalog.flattenFields tag root stack owner reach earlier specs).outcome =
      .ok flat) :
    (WellNamed specs ∧ ∀ spec ∈ specs, spec.name ∉ earlier) ∧ ∃ chains,
      Expands catalog stack specs chains ∧
        flat = chains.map (FieldChain.flatField tag owner reach) := by
  induction count : (catalog.outside stack).length using Nat.strong_induction_on
    generalizing stack owner reach earlier specs flat with
  | _ count outer =>
  induction specs generalizing earlier flat with
  | nil =>
      rw [flattenFields, Logged.outcome_pure] at success
      cases success
      exact ⟨⟨wellNamed_nil, List.forall_mem_nil _⟩, [], .nil, rfl⟩
  | cons spec specs ih =>
      obtain ⟨word, unseen, inner, rest, inside, restFlat, rfl⟩ :=
        flattenFields_cons_eq_ok_iff.mp success
      obtain ⟨named, chains, expands, rfl⟩ := ih restFlat
      refine ⟨wellNamed_and_unseen_cons_iff.mpr ⟨word, unseen, named⟩, ?_⟩
      rcases inside with ⟨closed, rfl⟩ | ⟨target, nested, nests, fresh, described, innerFlat⟩
      · exact ⟨.field spec :: chains, .closed closed expands, rfl⟩
      · -- A type without fields need not be listed, so the measure may stay the same.
        obtain ⟨⟨nestedNamed, -⟩, innerChains, innerExpands, rfl⟩ :
            (WellNamed nested ∧ ∀ spec ∈ nested, spec.name ∉ []) ∧ ∃ chains,
              Expands catalog (target :: stack) nested chains ∧
                inner = chains.map (FieldChain.flatField tag (owner ++ [spec.name])
                  (reachNested reach spec target)) := by
          cases nested with
          | nil =>
              rw [flattenFields, Logged.outcome_pure] at innerFlat
              cases innerFlat
              exact ⟨⟨wellNamed_nil, List.forall_mem_nil _⟩, [], .nil, rfl⟩
          | cons first nested =>
              have fewer := outside_length_lt_of_describe described fresh
              exact outer _ (count ▸ fewer) innerFlat rfl
        refine ⟨_, .opened nests fresh described nestedNamed innerExpands expands, ?_⟩
        simp [FieldChain.flatField]

/-- Fields with valid and unique names are flattened to the flat fields of their
expanded chains. -/
theorem flattenFields_of_expands {chains : List FieldChain}
    (expands : Expands catalog stack specs chains) (named : WellNamed specs)
    (apart : ∀ spec ∈ specs, spec.name ∉ earlier) :
    (catalog.flattenFields tag root stack owner reach earlier specs).outcome =
      .ok (chains.map (FieldChain.flatField tag owner reach)) := by
  induction expands generalizing owner reach earlier with
  | nil => rw [flattenFields, Logged.outcome_pure, List.map_nil]
  | closed closed _ ih =>
      obtain ⟨word, unseen, named, apart⟩ := wellNamed_and_unseen_cons_iff.mp ⟨named, apart⟩
      exact flattenFields_cons_eq_ok_iff.mpr
        ⟨word, unseen, [], _, .inl ⟨closed, rfl⟩, ih named apart, rfl⟩
  | opened nests fresh described nestedNamed _ _ innerIH ih =>
      obtain ⟨word, unseen, named, apart⟩ := wellNamed_and_unseen_cons_iff.mp ⟨named, apart⟩
      refine flattenFields_cons_eq_ok_iff.mpr ⟨word, unseen, _, _, .inr ⟨_, _, nests, fresh,
        described, innerIH nestedNamed fun _ _ => List.not_mem_nil⟩, ih named apart, ?_⟩
      simp [FieldChain.flatField]

/-- Flattening succeeds exactly when all names are valid and unique, with the flat
fields of the expanded chains. -/
theorem flatten_eq_ok_iff :
    (catalog.flatten tag root).outcome = .ok flat ↔
      ∃ specs, catalog.describe root = .fields specs ∧ WellNamed specs ∧ ∃ chains,
        Expands catalog [root] specs chains ∧
          flat = chains.map (FieldChain.flatField tag [] (Instance.as? root)) := by
  rw [flatten]
  cases described : catalog.describe root with
  | aborted => simp
  | fields specs =>
      constructor
      · intro success
        obtain ⟨⟨named, -⟩, expanded⟩ := expands_of_flattenFields success
        exact ⟨specs, rfl, named, expanded⟩
      · rintro ⟨_, ⟨⟩, named, chains, expands, rfl⟩
        exact flattenFields_of_expands expands named fun _ _ => List.not_mem_nil

theorem isFieldPath_path (flattened : (catalog.flatten tag root).outcome = .ok flat)
    {field : FlatField} (mem : field ∈ flat) : Text.isFieldPath field.path.toList = true := by
  obtain ⟨specs, -, named, chains, expands, rfl⟩ := flatten_eq_ok_iff.mp flattened
  obtain ⟨chain, inChains, rfl⟩ := List.mem_map.mp mem
  rw [chain.path_flatField]
  exact isFieldPath_dotted chain.names_ne_nil (expands.words named inChains)

/-- Flat fields have different paths. -/
theorem nodup_paths (flattened : (catalog.flatten tag root).outcome = .ok flat) :
    (flat.map FlatField.path).Nodup := by
  obtain ⟨specs, -, named, chains, expands, rfl⟩ := flatten_eq_ok_iff.mp flattened
  have paths : (chains.map (FieldChain.flatField tag [] (Instance.as? root))).map FlatField.path =
      (chains.map FieldChain.names).map dotted := by
    rw [List.map_map, List.map_map]
    exact List.map_congr_left fun chain _ => chain.path_flatField tag _
  rw [paths]
  refine List.Nodup.map_on (fun names inNames others inOthers same => ?_)
    (expands.nodup_names named)
  obtain ⟨chain, mem, rfl⟩ := List.mem_map.mp inNames
  obtain ⟨other, otherMem, rfl⟩ := List.mem_map.mp inOthers
  exact dotted_injective chain.names_ne_nil (expands.words named mem) other.names_ne_nil
    (expands.words named otherMem) same

end Catalog

end FieldRules
