import FieldRules.Program.Compile
import FieldRules.Proofs.Program.Entered
import Mathlib.Data.List.Perm.Subperm

/-!
# Flattening enumerates the chains without repeated types

When all names are valid and unique in their records, flattening succeeds even
if record types contain each other.  The flat fields are the ends of the chains
on which no record type repeats, in pre-order, and each has a path of its own.
-/

namespace FieldRules

/-! ## Pre-order -/

/-- In a list without repetitions two entries have one order. -/
theorem pair_sublist_asymm {α : Type} {first second : α} {entries : List α}
    (nodup : entries.Nodup) (order : [first, second].Sublist entries) :
    ¬ [second, first].Sublist entries := by
  intro reversed
  induction entries with
  | nil => cases order
  | cons entry entries ih =>
      obtain ⟨fresh, nodup⟩ := List.nodup_cons.mp nodup
      cases order with
      | cons _ order =>
          cases reversed with
          | cons _ reversed => exact ih nodup order reversed
          | cons_cons _ reversed => exact fresh (order.subset (by simp))
      | cons_cons _ order =>
          cases reversed with
          | cons _ reversed => exact fresh (reversed.subset (by simp))
          | cons_cons _ reversed => exact fresh (order.subset (by simp))

/-- All types describe their fields, with valid and unique names. -/
def Catalog.WellFormed (catalog : Catalog) : Prop :=
  ∀ type, ∃ specs, catalog.describe type = .fields specs ∧ WellNamed specs

theorem Catalog.WellFormed.wellNamed {catalog : Catalog} (wellFormed : catalog.WellFormed)
    (type : RecordType) : WellNamed (catalog.fields type) := by
  obtain ⟨specs, described, named⟩ := wellFormed type
  exact (catalog.fields_of_describe described).symm ▸ named

variable {catalog : Catalog} {specs : List FieldSpec}

theorem WellNamed.not_reversed (named : WellNamed specs) {first second : FieldSpec}
    (order : [first, second].Sublist specs) : ¬ [second, first].Sublist specs :=
  pair_sublist_asymm named.nodup.of_map order

theorem WellNamed.not_twice (named : WellNamed specs) {spec : FieldSpec} :
    ¬ [spec, spec].Sublist specs := fun twice =>
  named.not_reversed twice twice

namespace FieldChain

/-- Of two chains at most one precedes the other. -/
theorem Precedes.asymm (wellFormed : catalog.WellFormed) (named : WellNamed specs)
    {first second : FieldChain} (order : Precedes catalog specs first second) :
    ¬ Precedes catalog specs second first := by
  induction order with
  | above =>
      rintro (_ | _ | declared)
      exact named.not_twice declared
  | inside _ ih =>
      rintro (_ | order | declared)
      · exact ih (wellFormed.wellNamed _) order
      · exact named.not_twice declared
  | beside declared =>
      rintro (_ | order | reversed)
      · exact named.not_twice declared
      · exact named.not_twice declared
      · exact named.not_reversed declared reversed

theorem nodup_of_pairwise (wellFormed : catalog.WellFormed) (named : WellNamed specs)
    {chains : List FieldChain} (order : chains.Pairwise (Precedes catalog specs)) :
    chains.Nodup := by
  refine order.imp fun {first second} before same => ?_
  subst same
  exact before.asymm wellFormed named before

/-- Chains in pre-order are determined by which chains there are. -/
theorem eq_of_mem_iff (wellFormed : catalog.WellFormed) (named : WellNamed specs)
    {chains others : List FieldChain} (order : chains.Pairwise (Precedes catalog specs))
    (othersOrder : others.Pairwise (Precedes catalog specs))
    (same : ∀ chain, chain ∈ others ↔ chain ∈ chains) : others = chains := by
  have permuted : others.Perm chains :=
    (List.perm_ext_iff_of_nodup (nodup_of_pairwise wellFormed named othersOrder)
      (nodup_of_pairwise wellFormed named order)).mpr same
  exact permuted.eq_of_pairwise
    (fun _ _ _ _ before after => absurd after (before.asymm wellFormed named)) othersOrder order

/-! ## Length -/

theorem mem_entries_of_mem_fields {type : RecordType} {spec : FieldSpec}
    (mem : spec ∈ catalog.fields type) : type ∈ catalog.entries.map (·.1) := by
  rw [Catalog.fields, Catalog.describe, Catalog.find?] at mem
  cases listed : catalog.entries.lookup type with
  | none => simp [listed] at mem
  | some description =>
      obtain ⟨before, after, split, -⟩ := List.lookup_eq_some_iff.mp listed
      simp [split]

theorem Follows.types_listed {type : RecordType} {chain : FieldChain}
    (follows : chain.Follows catalog (catalog.fields type)) :
    ∀ inner ∈ type :: chain.types, inner ∈ catalog.entries.map (·.1) := by
  induction chain generalizing type with
  | field spec => exact List.forall_mem_singleton.mpr (mem_entries_of_mem_fields follows)
  | through spec target chain ih =>
      obtain ⟨mem, -, follows⟩ := follows
      exact List.forall_mem_cons.mpr ⟨mem_entries_of_mem_fields mem, ih follows⟩

/-- A chain without repeated types is no longer than the catalog. -/
theorem Follows.length_le {type : RecordType} {chain : FieldChain}
    (follows : chain.Follows catalog (catalog.fields type))
    (distinct : (type :: chain.types).Nodup) :
    chain.names.length ≤ catalog.entries.length := by
  have bounded := (List.subperm_of_subset distinct follows.types_listed).length_le
  rwa [List.length_cons, List.length_map, ← chain.length_names] at bounded

end FieldChain

/-! ## Flattening -/

/-- Where all types are well-formed, fields can be expanded. -/
theorem exists_expands (wellFormed : catalog.WellFormed) (stack : List RecordType)
    (specs : List FieldSpec) : ∃ chains, Expands catalog stack specs chains :=
  exists_expands_of_enters fun type _ => wellFormed type

/-- A path means the field that it is the path of. -/
theorem resolve_path {flat : List FlatField} (distinct : (flat.map FlatField.path).Nodup)
    {index : Nat} {field : FlatField} (at_index : flat[index]? = some field) :
    resolve (flat.map FlatField.path) "" field.path = some index := by
  rw [resolve, if_pos rfl]
  exact idxOf?_of_getElem? distinct (by simp [at_index])

/-- Flattening a record type succeeds with the fields at the ends of the chains of
distinct record types, in pre-order.  The chains are as short as the catalog, and
the fields have different paths, each of which means its own field. -/
theorem flatten_enumerates_chains (wellFormed : catalog.WellFormed) (tag : String)
    (root : RecordType) :
    ∃ (chains : List FieldChain) (flat : List FlatField),
      (catalog.flatten tag root).outcome = .ok flat ∧
      flat.map FlatField.names = chains.map FieldChain.names ∧
      (∀ chain, chain ∈ chains ↔
        chain.Follows catalog (catalog.fields root) ∧ (root :: chain.types).Nodup) ∧
      chains.Pairwise (FieldChain.Precedes catalog (catalog.fields root)) ∧
      (∀ others : List FieldChain,
        others.Pairwise (FieldChain.Precedes catalog (catalog.fields root)) →
          (∀ chain, chain ∈ others ↔ chain ∈ chains) → others = chains) ∧
      (∀ chain ∈ chains, chain.names.length ≤ catalog.entries.length) ∧
      (flat.map FlatField.path).Nodup ∧
      ∀ index field, flat[index]? = some field →
        resolve (flat.map FlatField.path) "" field.path = some index := by
  obtain ⟨specs, described, named⟩ := wellFormed root
  obtain ⟨chains, expands⟩ := exists_expands wellFormed [root] specs
  have fields := Catalog.fields_of_describe described
  have flattened : (catalog.flatten tag root).outcome =
      .ok (chains.map (FieldChain.flatField tag [] (Instance.as? root))) :=
    Catalog.flatten_eq_ok_iff.mpr ⟨specs, described, named, chains, expands, rfl⟩
  have mem_iff (chain : FieldChain) : chain ∈ chains ↔
      chain.Follows catalog (catalog.fields root) ∧ (root :: chain.types).Nodup := by
    have notRoot : (∀ type ∈ chain.types, type ∉ [root]) ↔ root ∉ chain.types := by
      simp only [List.mem_singleton]
      exact ⟨fun outside mem => outside root mem rfl, fun fresh type mem same => fresh (same ▸ mem)⟩
    rw [expands.mem_iff, fields, List.nodup_cons, notRoot, and_comm (a := chain.types.Nodup)]
  have names : (chains.map (FieldChain.flatField tag [] (Instance.as? root))).map
      FlatField.names = chains.map FieldChain.names := by
    rw [List.map_map]
    exact List.map_congr_left fun chain _ => chain.names_flatField tag [] _
  have distinct := Catalog.nodup_paths flattened
  refine ⟨chains, _, flattened, names, mem_iff, fields ▸ expands.pairwise, ?_, ?_, distinct,
    fun _ _ => resolve_path distinct⟩
  · exact fun others order => FieldChain.eq_of_mem_iff wellFormed (fields ▸ named)
      (fields ▸ expands.pairwise) order
  · intro chain mem
    obtain ⟨follows, fresh⟩ := (mem_iff chain).mp mem
    exact follows.length_le fresh

/-- Orders and persons that refer to each other. -/
def ordersAndPersons : Catalog :=
  ⟨[(⟨"Order"⟩, .fields [.leaf "id", .record "buyer" ⟨"Person"⟩]),
    (⟨"Person"⟩, .fields [.record "last" ⟨"Order"⟩, .leaf "name"])]⟩

theorem ordersAndPersons_wellFormed : ordersAndPersons.WellFormed := by
  intro type
  by_cases order : type = ⟨"Order"⟩
  · subst order
    exact ⟨_, rfl, by decide, by decide⟩
  · by_cases person : type = ⟨"Person"⟩
    · subst person
      exact ⟨_, rfl, by decide, by decide⟩
    · refine ⟨[], ?_, wellNamed_nil⟩
      have noOrder : (type == ⟨"Order"⟩) = false := by simpa using order
      have noPerson : (type == ⟨"Person"⟩) = false := by simpa using person
      simp [Catalog.describe, Catalog.find?, ordersAndPersons, List.lookup_cons, noOrder, noPerson]

/-- The last order of the buyer is a field of an order, but its fields are not. -/
theorem buyer_of_order_flattened :
    ∃ flat, (ordersAndPersons.flatten "v" ⟨"Order"⟩).outcome = .ok flat ∧
      flat.map FlatField.names = [["id"], ["buyer"], ["buyer", "last"], ["buyer", "name"]] ∧
      (flat.map FlatField.path).Nodup := by
  obtain ⟨-, flat, flattened, -, -, -, -, -, distinct, -⟩ :=
    flatten_enumerates_chains ordersAndPersons_wellFormed "v" ⟨"Order"⟩
  have personFields : Expands ordersAndPersons [⟨"Person"⟩, ⟨"Order"⟩]
      [.record "last" ⟨"Order"⟩, .leaf "name"] _ :=
    .closed (by simp [FieldSpec.record]) (.closed (by simp [FieldSpec.leaf]) .nil)
  have orderFields : Expands ordersAndPersons [⟨"Order"⟩]
      [.leaf "id", .record "buyer" ⟨"Person"⟩] _ :=
    .closed (by simp [FieldSpec.leaf])
      (.opened rfl (by decide) rfl (ordersAndPersons_wellFormed.wellNamed ⟨"Person"⟩)
        personFields .nil)
  have computed : (ordersAndPersons.flatten "v" ⟨"Order"⟩).outcome = .ok _ :=
    Catalog.flatten_eq_ok_iff.mpr
      ⟨_, rfl, ordersAndPersons_wellFormed.wellNamed ⟨"Order"⟩, _, orderFields, rfl⟩
  obtain rfl := Except.ok.inj (flattened.symm.trans computed)
  exact ⟨_, flattened, rfl, distinct⟩

end FieldRules
