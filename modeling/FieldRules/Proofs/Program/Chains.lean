import FieldRules.Program.Flatten
import FieldRules.Proofs.Record.Path
import Mathlib.Data.List.Nodup

/-!
# Chains of declared fields

A chain leads from a record type through nested record types to one of their
fields.  Expanding a list of declared fields yields chains: each field alone,
and then, unless its record type is being expanded already, the chains of its
record type behind it.

The expanded chains are exactly those on which no record type repeats, and they
come in pre-order: a field before the fields of its record, and otherwise as
declared.
-/

namespace FieldRules

/-! ## Chains -/

/-- A field, possibly behind fields that hold records of given types. -/
inductive FieldChain where
  | field (spec : FieldSpec)
  | through (spec : FieldSpec) (target : RecordType) (chain : FieldChain)

namespace FieldChain

/-- The first declared field of a chain. -/
def head : FieldChain → FieldSpec
  | field spec => spec
  | through spec _ _ => spec

/-- The names along a chain. -/
def names : FieldChain → List String
  | field spec => [spec.name]
  | through spec _ chain => spec.name :: chain.names

/-- The record types that a chain enters. -/
def types : FieldChain → List RecordType
  | field _ => []
  | through _ target chain => target :: chain.types

theorem names_eq_cons (chain : FieldChain) : ∃ rest, chain.names = chain.head.name :: rest := by
  cases chain with
  | field spec => exact ⟨[], rfl⟩
  | through spec target chain => exact ⟨chain.names, rfl⟩

theorem names_ne_nil (chain : FieldChain) : chain.names ≠ [] := by
  obtain ⟨rest, split⟩ := chain.names_eq_cons
  simp [split]

theorem name_head_of_names_eq {first second : FieldChain} (same : first.names = second.names) :
    first.head.name = second.head.name := by
  obtain ⟨firstRest, firstSplit⟩ := first.names_eq_cons
  obtain ⟨secondRest, secondSplit⟩ := second.names_eq_cons
  rw [firstSplit, secondSplit] at same
  exact (List.cons.inj same).1

theorem length_names (chain : FieldChain) : chain.names.length = chain.types.length + 1 := by
  induction chain with
  | field spec => rfl
  | through spec target chain ih => exact congrArg (· + 1) ih

end FieldChain

/-- The declared fields of a record type; there are none if the type is not listed
or its description broke off. -/
def Catalog.fields (catalog : Catalog) (type : RecordType) : List FieldSpec :=
  match catalog.describe type with
  | .fields specs => specs
  | .aborted => []

theorem Catalog.fields_of_describe {catalog : Catalog} {type : RecordType}
    {specs : List FieldSpec} (described : catalog.describe type = .fields specs) :
    catalog.fields type = specs := by
  rw [fields, described]

/-- Names of fields are words, and different fields have different names. -/
structure WellNamed (specs : List FieldSpec) : Prop where
  words : ∀ spec ∈ specs, Text.isWord spec.name.toList = true
  nodup : (specs.map FieldSpec.name).Nodup

theorem wellNamed_nil : WellNamed [] where
  words := List.forall_mem_nil _
  nodup := .nil

theorem wellNamed_cons_iff {spec : FieldSpec} {specs : List FieldSpec} :
    WellNamed (spec :: specs) ↔
      Text.isWord spec.name.toList = true ∧ (∀ other ∈ specs, other.name ≠ spec.name) ∧
        WellNamed specs := by
  constructor
  · rintro ⟨words, nodup⟩
    rw [List.map_cons, List.nodup_cons] at nodup
    refine ⟨words spec List.mem_cons_self, fun other mem same => ?_,
      fun other mem => words other (List.mem_cons_of_mem _ mem), nodup.2⟩
    exact nodup.1 (same ▸ List.mem_map_of_mem mem)
  · rintro ⟨word, apart, words, nodup⟩
    refine ⟨List.forall_mem_cons.mpr ⟨word, words⟩, List.nodup_cons.mpr ⟨fun mem => ?_, nodup⟩⟩
    obtain ⟨other, inSpecs, same⟩ := List.mem_map.mp mem
    exact apart other inSpecs same

theorem WellNamed.tail {spec : FieldSpec} {specs : List FieldSpec}
    (named : WellNamed (spec :: specs)) : WellNamed specs :=
  (wellNamed_cons_iff.mp named).2.2

theorem WellNamed.name_ne {spec : FieldSpec} {specs : List FieldSpec}
    (named : WellNamed (spec :: specs)) {other : FieldSpec} (mem : other ∈ specs) :
    other.name ≠ spec.name :=
  (wellNamed_cons_iff.mp named).2.1 other mem

namespace FieldChain

/-- Each field of a chain is declared where the chain has led to. -/
def Follows (catalog : Catalog) : List FieldSpec → FieldChain → Prop
  | specs, field spec => spec ∈ specs
  | specs, through spec target chain =>
      spec ∈ specs ∧ spec.nested = some target ∧ chain.Follows catalog (catalog.fields target)

/-- Pre-order of chains: a field comes before the fields of its record, and what
is declared earlier comes first. -/
inductive Precedes (catalog : Catalog) : List FieldSpec → FieldChain → FieldChain → Prop
  | above {specs : List FieldSpec} {spec : FieldSpec} {target : RecordType} {chain : FieldChain} :
      Precedes catalog specs (.field spec) (.through spec target chain)
  | inside {specs : List FieldSpec} {spec : FieldSpec} {target : RecordType}
      {first second : FieldChain} (order : Precedes catalog (catalog.fields target) first second) :
      Precedes catalog specs (.through spec target first) (.through spec target second)
  | beside {specs : List FieldSpec} {first second : FieldChain}
      (declared : [first.head, second.head].Sublist specs) : Precedes catalog specs first second

theorem Precedes.cons {catalog : Catalog} {specs : List FieldSpec} {first second : FieldChain}
    (order : Precedes catalog specs first second) (spec : FieldSpec) :
    Precedes catalog (spec :: specs) first second := by
  cases order with
  | above => exact .above
  | inside order => exact .inside order
  | beside declared => exact .beside (declared.cons spec)

end FieldChain

/-! ## Expanding declared fields -/

/-- The chains that declared fields expand to while the types of `stack` are being
expanded.  A nested type is expanded unless it is on the stack. -/
inductive Expands (catalog : Catalog) :
    List RecordType → List FieldSpec → List FieldChain → Prop
  | nil {stack : List RecordType} : Expands catalog stack [] []
  | closed {stack : List RecordType} {spec : FieldSpec} {specs : List FieldSpec}
      {rest : List FieldChain} (closed : ∀ target, spec.nested = some target → target ∈ stack)
      (others : Expands catalog stack specs rest) :
      Expands catalog stack (spec :: specs) (.field spec :: rest)
  | opened {stack : List RecordType} {spec : FieldSpec} {target : RecordType}
      {specs nested : List FieldSpec} {inner rest : List FieldChain}
      (nests : spec.nested = some target) (fresh : target ∉ stack)
      (described : catalog.describe target = .fields nested) (named : WellNamed nested)
      (expanded : Expands catalog (target :: stack) nested inner)
      (others : Expands catalog stack specs rest) :
      Expands catalog stack (spec :: specs)
        (.field spec :: inner.map (.through spec target) ++ rest)

namespace Expands

variable {catalog : Catalog} {stack : List RecordType} {specs : List FieldSpec}
  {chains : List FieldChain}

theorem head_mem (expands : Expands catalog stack specs chains) {chain : FieldChain}
    (mem : chain ∈ chains) : chain.head ∈ specs := by
  induction expands with
  | nil => cases mem
  | closed _ _ ih =>
      rcases List.mem_cons.mp mem with rfl | mem
      · exact List.mem_cons_self
      · exact List.mem_cons_of_mem _ (ih mem)
  | opened _ _ _ _ _ _ _ ih =>
      rcases List.mem_cons.mp mem with rfl | mem
      · exact List.mem_cons_self
      · rcases List.mem_append.mp mem with mem | mem
        · obtain ⟨inner, -, rfl⟩ := List.mem_map.mp mem
          exact List.mem_cons_self
        · exact List.mem_cons_of_mem _ (ih mem)

/-- Fields expand to the chains that enter no type twice and none of the stack. -/
theorem mem_iff (expands : Expands catalog stack specs chains) {chain : FieldChain} :
    chain ∈ chains ↔
      chain.Follows catalog specs ∧ chain.types.Nodup ∧ ∀ type ∈ chain.types, type ∉ stack := by
  induction expands generalizing chain with
  | nil => cases chain <;> simp [FieldChain.Follows]
  | @closed stack spec specs rest closed _ ih =>
      cases chain with
      | field other =>
          rw [List.mem_cons, ih]
          simp [FieldChain.Follows, FieldChain.types]
      | through other target chain =>
          rw [List.mem_cons, ih]
          simp only [reduceCtorEq, false_or, FieldChain.Follows, FieldChain.types, List.mem_cons]
          constructor
          · rintro ⟨⟨mem, follows⟩, fresh⟩
            exact ⟨⟨.inr mem, follows⟩, fresh⟩
          · rintro ⟨⟨rfl | mem, nests, follows⟩, distinct, fresh⟩
            · exact absurd (closed target nests) (fresh target (.inl rfl))
            · exact ⟨⟨mem, nests, follows⟩, distinct, fresh⟩
  | @opened stack spec target specs nested inner rest nests fresh described _ _ _ innerIH ih =>
      have fields := Catalog.fields_of_describe described
      cases chain with
      | field other =>
          rw [List.cons_append, List.mem_cons, List.mem_append, ih]
          simp [FieldChain.Follows, FieldChain.types]
      | through other target' chain =>
          rw [List.cons_append, List.mem_cons, List.mem_append, ih]
          simp only [reduceCtorEq, false_or, List.mem_map, FieldChain.through.injEq,
            FieldChain.Follows, FieldChain.types, List.nodup_cons, List.mem_cons,
            forall_eq_or_imp]
          constructor
          · rintro (⟨chain, mem, rfl, rfl, rfl⟩ | ⟨⟨mem, follows⟩, distinct, fresh⟩)
            · obtain ⟨follows, distinct, outside⟩ := innerIH.mp mem
              refine ⟨⟨.inl rfl, nests, fields ▸ follows⟩, ⟨fun again => ?_, distinct⟩, fresh, ?_⟩
              · exact outside target again List.mem_cons_self
              · exact fun type inChain onStack =>
                  outside type inChain (List.mem_cons_of_mem _ onStack)
            · exact ⟨⟨.inr mem, follows⟩, distinct, fresh⟩
          · rintro ⟨⟨rfl | mem, nests', follows⟩, ⟨again, distinct⟩, fresh', outside⟩
            · obtain rfl : target = target' := Option.some.inj (nests.symm.trans nests')
              refine .inl ⟨chain, innerIH.mpr ⟨fields ▸ follows, distinct, ?_⟩, rfl, rfl, rfl⟩
              intro type inChain onStack
              rcases List.mem_cons.mp onStack with rfl | onStack
              · exact again inChain
              · exact outside type inChain onStack
            · exact .inr ⟨⟨mem, nests', follows⟩, ⟨again, distinct⟩, fresh', outside⟩

/-- Fields expand to chains in pre-order. -/
theorem pairwise (expands : Expands catalog stack specs chains) :
    chains.Pairwise (FieldChain.Precedes catalog specs) := by
  induction expands with
  | nil => exact .nil
  | @closed stack spec specs rest _ others ih =>
      refine List.pairwise_cons.mpr ⟨fun chain mem => ?_, ih.imp fun order => order.cons spec⟩
      exact .beside (.cons_cons spec (List.singleton_sublist.mpr (others.head_mem mem)))
  | @opened stack spec target specs nested inner rest _ _ described _ _ others innerIH ih =>
      have behind {first : FieldChain} (head : first.head = spec) {chain : FieldChain}
          (mem : chain ∈ rest) : FieldChain.Precedes catalog (spec :: specs) first chain :=
        .beside (head ▸ .cons_cons _ (List.singleton_sublist.mpr (others.head_mem mem)))
      have inside : (inner.map (.through spec target)).Pairwise
          (FieldChain.Precedes catalog (spec :: specs)) := by
        refine List.pairwise_map.mpr (innerIH.imp fun order => ?_)
        exact .inside ((Catalog.fields_of_describe described).symm ▸ order)
      rw [List.cons_append]
      refine List.pairwise_cons.mpr ⟨fun chain mem => ?_, List.pairwise_append.mpr
        ⟨inside, ih.imp fun order => order.cons spec, fun first inFirst chain mem => ?_⟩⟩
      · rcases List.mem_append.mp mem with inFirst | mem
        · obtain ⟨chain, -, rfl⟩ := List.mem_map.mp inFirst
          exact .above
        · exact behind rfl mem
      · obtain ⟨first, -, rfl⟩ := List.mem_map.mp inFirst
        exact behind rfl mem

/-- The names along chains are words. -/
theorem words (expands : Expands catalog stack specs chains) (named : WellNamed specs)
    {chain : FieldChain} (mem : chain ∈ chains) : AreWords chain.names := by
  induction expands generalizing chain with
  | nil => cases mem
  | closed _ _ ih =>
      rcases List.mem_cons.mp mem with rfl | mem
      · exact List.forall_mem_singleton.mpr (named.words _ List.mem_cons_self)
      · exact ih named.tail mem
  | opened _ _ _ nestedNamed _ _ innerIH ih =>
      have first := named.words _ List.mem_cons_self
      rcases List.mem_cons.mp mem with rfl | mem
      · exact List.forall_mem_singleton.mpr first
      · rcases List.mem_append.mp mem with mem | mem
        · obtain ⟨chain, inInner, rfl⟩ := List.mem_map.mp mem
          exact List.forall_mem_cons.mpr ⟨first, innerIH nestedNamed inInner⟩
        · exact ih named.tail mem

/-- Different chains have different names. -/
theorem nodup_names (expands : Expands catalog stack specs chains) (named : WellNamed specs) :
    (chains.map FieldChain.names).Nodup := by
  induction expands with
  | nil => exact .nil
  | @closed stack spec specs rest _ others ih =>
      refine List.nodup_cons.mpr ⟨fun mem => ?_, ih named.tail⟩
      obtain ⟨chain, inRest, same⟩ := List.mem_map.mp mem
      exact named.name_ne (others.head_mem inRest) (FieldChain.name_head_of_names_eq same)
  | @opened stack spec target specs nested inner rest _ _ _ nestedNamed _ others innerIH ih =>
      have apart (first : FieldChain) (head : first.head = spec) {chain : FieldChain}
          (mem : chain ∈ rest) : first.names ≠ chain.names := fun same =>
        named.name_ne (others.head_mem mem)
          ((FieldChain.name_head_of_names_eq same).symm.trans (congrArg FieldSpec.name head))
      rw [List.cons_append, List.map_cons, List.map_append, List.map_map]
      refine List.nodup_cons.mpr ⟨fun mem => ?_, List.nodup_append.mpr
        ⟨?_, ih named.tail, fun names inFirst others inRest => ?_⟩⟩
      · rcases List.mem_append.mp mem with inFirst | inRest
        · obtain ⟨chain, -, same⟩ := List.mem_map.mp inFirst
          exact chain.names_ne_nil (List.cons.inj same).2
        · obtain ⟨chain, mem, same⟩ := List.mem_map.mp inRest
          exact apart (.field spec) rfl mem same.symm
      · have names : FieldChain.names ∘ .through spec target =
            (List.cons spec.name) ∘ FieldChain.names := rfl
        rw [names, ← List.map_map]
        exact List.Nodup.map List.cons_injective (innerIH nestedNamed)
      · obtain ⟨first, -, rfl⟩ := List.mem_map.mp inFirst
        obtain ⟨chain, mem, rfl⟩ := List.mem_map.mp inRest
        exact apart (.through spec target first) rfl mem

end Expands

end FieldRules
