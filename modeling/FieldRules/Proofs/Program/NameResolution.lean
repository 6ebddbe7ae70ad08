import FieldRules.Proofs.Eval.Congruence
import FieldRules.Proofs.Program.Navigation
import FieldRules.Proofs.Program.Selectors

/-!
# Programs compute what name resolution would

Compilation binds the paths in an expression to slots, slots to positions and
positions to composed accessors.  None of this changes a value: an expression
has the value that it has in the scope that navigates to a path when it is asked
for it.
-/

namespace FieldRules

open FieldRules.Text

/-- The path that a path means in the record at `owner`: that of a field of the
record if there is one, and otherwise the path itself. -/
def meant (paths : List String) (owner path : String) : String :=
  if owner ≠ "" ∧ joinPath owner path ∈ paths then joinPath owner path else path

/-- A position that a path is bound to is that of the path it means. -/
theorem Means.getElem? {paths : List String} {owner path : String} {index : Nat}
    (means : Means paths owner path index) : paths[index]? = some (meant paths owner path) := by
  rw [Means, resolve] at means
  split_ifs at means with atRoot
  · rw [meant, if_neg (fun both => both.1 atRoot)]
    exact getElem?_of_idxOf? means
  · cases found : paths.idxOf? (joinPath owner path) with
    | none =>
        have absent := List.idxOf?_eq_none_iff.mp found
        rw [found] at means
        rw [meant, if_neg (fun both => absent both.2)]
        exact getElem?_of_idxOf? means
    | some joined =>
        have here := getElem?_of_idxOf? found
        rw [found] at means
        cases means
        rw [meant, if_pos ⟨atRoot, List.mem_of_getElem? here⟩]
        exact here

variable [RegexLibrary]

variable {registry : Registry} {catalog : Catalog} {tag : String} {root : RecordType}
  {flat : List FlatField} {program : Program} {inst : Instance}

/-- The slot of a field selector counts the paths of the expression. -/
theorem NamedExpression.WellFormed.getElem?_fieldPaths {named : NamedExpression}
    (wellFormed : named.WellFormed) {path : String} {slot : Nat}
    (inOrigins : .field path slot ∈ named.expression.root.origins) :
    named.expression.fieldPaths[slot]? = some path := by
  rcases wellFormed.numbered with ⟨source, tree, numbered⟩
  rw [numbered] at inOrigins ⊢
  rw [Expression.fieldPaths, Expression.ofTree, Node.fieldPaths_withSlots]
  exact Node.getElem?_fieldPaths_of_mem_origins inOrigins

/-- The selectors of a program are different. -/
theorem Program.nodup_selectors_of_flatten
    (flattened : (catalog.flatten tag root).outcome = .ok flat)
    (fieldsFrom : List.Forall₂ (FieldFrom registry (flat.map FlatField.path)) flat program.fields) :
    program.selectors.Nodup := by
  rw [program.selectors_eq]
  exact nodup_selectors fieldsFrom (fun _ => Catalog.isFieldPath_path flattened)
    (Catalog.nodup_paths flattened)

/-- A declared expression behind a compiled one. -/
theorem exists_declared_of_compiled
    (fieldsFrom : List.Forall₂ (FieldFrom registry (flat.map FlatField.path)) flat program.fields)
    {entry : ProgramField × CompiledExpression} (mem : entry ∈ program.expressions) :
    ∃ field ∈ flat, ∃ blocks, field.declared registry = .ok blocks ∧ ∃ named ∈ blocks,
      CompiledFrom (flat.map FlatField.path) field named entry.2 := by
  obtain ⟨programField, inFields, inField⟩ := List.mem_flatMap.mp mem
  obtain ⟨compiled, inExpressions, rfl⟩ := List.mem_map.mp inField
  obtain ⟨field, inFlat, -, -, blocks, declared, aligned⟩ :=
    exists_mem_of_forall₂ fieldsFrom.flip inFields
  obtain ⟨named, inBlocks, compiledFrom⟩ := exists_mem_of_forall₂ aligned.flip inExpressions
  exact ⟨field, inFlat, blocks, declared, named, inBlocks, compiledFrom⟩

/-- The nick of a buyer is to be the number of the order. -/
def nick : FieldSpec :=
  (FieldSpec.leaf "nick").tag "v" "(nick)$==(id)$"

/-- The tree of the annotation of `nick`. -/
def nickTree : Node :=
  .binary .eq (.selector (.field "nick" 0) []) (.selector (.field "id" 1) [])

/-- Orders with buyers. -/
def orders : Environment where
  catalog :=
    ⟨[(⟨"Order"⟩, .fields [.leaf "id", .record "buyer" ⟨"Person"⟩]),
      (⟨"Person"⟩, .fields [nick])]⟩
  registry := .empty

/-- The flat fields of orders. -/
def flatOrders : List FlatField :=
  [.field (.leaf "id"), .field (.record "buyer" ⟨"Person"⟩),
    .through (.record "buyer" ⟨"Person"⟩) ⟨"Person"⟩ (.field nick)].map
      (FieldChain.flatField "v" [] (Instance.as? ⟨"Order"⟩))

omit [RegexLibrary] in
theorem orders_flattened :
    (orders.catalog.flatten "v" ⟨"Order"⟩).outcome = .ok flatOrders := by
  have personFields : Expands orders.catalog [⟨"Person"⟩, ⟨"Order"⟩] [nick] _ :=
    .closed (by simp [nick, FieldSpec.leaf, FieldSpec.tag]) .nil
  have orderFields : Expands orders.catalog [⟨"Order"⟩]
      [.leaf "id", .record "buyer" ⟨"Person"⟩] _ :=
    .closed (by simp [FieldSpec.leaf])
      (.opened rfl (by decide) rfl ⟨by decide, by decide⟩ personFields .nil)
  exact Catalog.flatten_eq_ok_iff.mpr ⟨_, rfl, ⟨by decide, by decide⟩, _, orderFields, rfl⟩

theorem nick_read : Annotation.ofText .empty "(nick)$==(id)$" =
    .ok [⟨none, .ofTree "(nick)$==(id)$" nickTree⟩] := by
  let rest := ['n', 'i', 'c', 'k', ')', '$', '=', '=', '(', 'i', 'd', ')', '$']
  have chars : "(nick)$==(id)$".toList = '(' :: rest := rfl
  have source : String.ofList ('(' :: rest) = "(nick)$==(id)$" := rfl
  have shown : skipLayout "(nick)$==(id)$".toList = '(' :: rest := rfl
  have trimmed : trimEnd ('(' :: rest) = '(' :: rest := rfl
  have tree : Node.ofText .empty ('(' :: rest) = .ok nickTree.unslotted := rfl
  have read : Annotation.ofText .empty "(nick)$==(id)$" =
      (Expression.ofText .empty (.ofList (trimEnd ('(' :: rest)))).map fun expression =>
        [⟨none, expression⟩] :=
    Annotation.ofText_default shown (by decide)
  rw [read, trimmed, source, Expression.ofText, chars, tree, Except.map, Except.map,
    Expression.ofTree_unslotted]

/-- The program of orders: the nick is the field at position 2, and the number of
the order the one at position 0. -/
def orderProgram : Program where
  type := ⟨"Order"⟩
  fields := List.zipWith (fun field expressions => ⟨field.path, field.read, expressions⟩) flatOrders
    [[], [], [⟨none, "buyer.nick", .ofTree "(nick)$==(id)$" nickTree, [2, 0]⟩]]

theorem orders_compile : (Program.compile orders "v" ⟨"Order"⟩).outcome = .ok orderProgram := by
  have nickRefs : List.Forall₂ (Means ["id", "buyer", "buyer.nick"] "buyer") ["nick", "id"]
      [2, 0] :=
    .cons (by rfl) (.cons (by rfl) .nil)
  have fieldsFrom : List.Forall₂ (FieldFrom .empty (flatOrders.map FlatField.path)) flatOrders
      orderProgram.fields := by
    refine .cons ⟨rfl, rfl, [], rfl, .nil⟩ (.cons ⟨rfl, rfl, [], rfl, .nil⟩ (.cons ?_ .nil))
    exact ⟨rfl, rfl, _, nick_read, .cons ⟨rfl, rfl, rfl, nickRefs⟩ .nil⟩
  exact Program.outcome_compile_eq_ok_iff.mpr ⟨rfl, flatOrders, orders_flattened, fieldsFrom⟩

end FieldRules

namespace FieldRules

open FieldRules.Text

attribute [local instance] RegexLibrary.empty

end FieldRules
