import FieldRules.Proofs.Program.Addressing

/-!
# Expressions beside a visited one

From a visit, the expressions of the same field are evaluated by name.  The text that is
given as a name goes behind the path and a mark, and of that one mark is left out at the
end.  So a text stands for the name that is left of it without a mark at its end, and the
empty text stands for the default expression.  The name `@`, under which the default
expression is shown, stands for no expression at all.
-/

namespace FieldRules

open FieldRules.Text

/-! ## Texts given as names -/

/-- The name of the expression that a text stands for when it is given as a name. -/
def namedBy (text : String) : Option String :=
  if text = "" then none else some (Program.stripMark text)

theorem marked_ne {text other : String} (notLonger : other.length ≤ text.length) :
    text ++ "@" ≠ other := by
  intro same
  have longer := congrArg String.length same
  rw [String.length_append] at longer
  have mark : "@".length = 1 := rfl
  omega

theorem namedBy_marked (text : String) : namedBy (text ++ "@") = some text := by
  rw [namedBy, if_neg (marked_ne (Nat.zero_le _)), Program.stripMark_marked]

/-- A text stands for itself unless it is empty or has a mark at its end. -/
theorem namedBy_eq_self_iff {text : String} :
    namedBy text = some text ↔ text ≠ "" ∧ text.toList.getLast? ≠ some '@' := by
  constructor
  · intro itself
    constructor
    · rintro rfl
      cases itself
    · intro last
      rcases Program.exists_eq_marked last with ⟨rest, rfl⟩
      rw [namedBy_marked] at itself
      exact marked_ne (Nat.le_refl _) (Option.some.inj itself).symm
  · rintro ⟨notEmpty, last⟩
    rw [namedBy, if_neg notEmpty, stripMark_eq_self last]

theorem namedBy_of_isWord {word : String} (valid : isWord word.toList = true) :
    namedBy word = some word := by
  rw [namedBy_eq_self_iff]
  constructor
  · rintro rfl
    cases valid
  · intro last
    have mark := isWordChar_of_isWord valid '@' (List.mem_of_getLast? last)
    cases mark

/-- The mark that is left out of a selector is the one behind the text, or, if the text
is empty, the one in front of it. -/
theorem stripMark_named (path text : String) :
    Program.stripMark (selectorOf path (some text)) = selectorOf path (namedBy text) := by
  by_cases empty : text = ""
  · subst empty
    have selector : selectorOf path (some "") = path ++ "@" := String.append_empty
    rw [selector, Program.stripMark_marked]
    rfl
  · by_cases last : text.toList.getLast? = some '@'
    · rcases Program.exists_eq_marked last with ⟨rest, rfl⟩
      have selector : selectorOf path (some (rest ++ "@")) = selectorOf path (some rest) ++ "@" :=
        String.append_assoc.symm
      rw [selector, Program.stripMark_marked, namedBy_marked]
    · have unmarked : (selectorOf path (some text)).toList.getLast? ≠ some '@' := by
        rw [toList_selectorOf, markedName, List.getLast?_append, List.getLast?_cons]
        cases ending : text.toList.getLast? with
        | none =>
            exact absurd (String.toList_eq_nil_iff.mp (List.getLast?_eq_none_iff.mp ending)) empty
        | some c =>
            rw [ending] at last
            exact last
      rw [stripMark_eq_self unmarked, namedBy_eq_self_iff.mpr ⟨empty, last⟩]

variable [RegexLibrary]

/-! ## Expressions of one field -/

namespace Program

variable {environment : Environment} {tag : String} {root : RecordType} {program : Program}
  {field owner : ProgramField} {entry : ProgramField × CompiledExpression} {text : String}

theorem isFieldPath_path (success : (compile environment tag root).outcome = .ok program)
    (inFields : field ∈ program.fields) : isFieldPath field.path.toList = true := by
  rcases outcome_compile_eq_ok_iff.mp success with ⟨-, flat, flattened, fieldsFrom⟩
  rcases exists_mem_of_forall₂ fieldsFrom.flip inFields with ⟨flatField, inFlat, path, -⟩
  rw [path]
  exact Catalog.isFieldPath_path flattened inFlat

/-- Different fields of a program have different paths. -/
theorem field_eq_of_path_eq (success : (compile environment tag root).outcome = .ok program)
    (inOwners : owner ∈ program.fields) (inFields : field ∈ program.fields)
    (same : owner.path = field.path) : owner = field := by
  rcases outcome_compile_eq_ok_iff.mp success with ⟨-, flat, flattened, fieldsFrom⟩
  have paths : List.Forall₂ Eq (program.fields.map ProgramField.path)
      (flat.map FlatField.path) := by
    rw [List.forall₂_map_left_iff, List.forall₂_map_right_iff]
    exact fieldsFrom.flip.imp fun _ _ fieldFrom => fieldFrom.path
  rw [List.forall₂_eq_eq_eq] at paths
  have distinct : (program.fields.map ProgramField.path).Nodup := by
    rw [paths]
    exact Catalog.nodup_paths flattened
  exact List.inj_on_of_nodup_map distinct inOwners inFields same

theorem selector_eq (success : (compile environment tag root).outcome = .ok program)
    (mem : entry ∈ program.expressions) :
    entry.2.selector = selectorOf entry.1.path entry.2.name := by
  rcases outcome_compile_eq_ok_iff.mp success with ⟨-, flat, flattened, fieldsFrom⟩
  have valid (flatField : FlatField) (inFlat : flatField ∈ flat) :
      isFieldPath flatField.path.toList = true :=
    Catalog.isFieldPath_path flattened inFlat
  exact (selector_of_mem_expressions fieldsFrom valid mem).1

/-- The selector with a text as the name of an expression leads to the expression of
the same field that the text stands for. -/
theorem find?_named_iff (success : (compile environment tag root).outcome = .ok program)
    (inFields : field ∈ program.fields) :
    program.find? (selectorOf field.path (some text)) = some entry ↔
      entry.1 = field ∧ entry.2 ∈ field.expressions ∧ entry.2.name = namedBy text := by
  rcases outcome_compile_eq_ok_iff.mp success with ⟨-, flat, flattened, fieldsFrom⟩
  rw [find?_eq_some_iff (nodup_selectors_of_flatten flattened fieldsFrom), stripMark_named]
  constructor
  · rintro ⟨mem, same⟩
    rw [selector_eq success mem] at same
    rcases List.mem_flatMap.mp mem with ⟨owner, inOwners, inOwner⟩
    rcases List.mem_map.mp inOwner with ⟨compiled, inExpressions, rfl⟩
    rcases selectorOf_injective (isFieldPath_path success inFields)
      (isFieldPath_path success inOwners) same with ⟨path, name⟩
    cases field_eq_of_path_eq success inOwners inFields path.symm
    exact ⟨rfl, inExpressions, name.symm⟩
  · rcases entry with ⟨owner, compiled⟩
    rintro ⟨rfl, inExpressions, name⟩
    have mem := mem_expressions inFields inExpressions
    constructor
    · exact mem
    · rw [selector_eq success mem, name]

end Program

/-! ## Values by name -/

section

variable {environment : Environment} {tag : String} {root : RecordType} {program : Program}
  {inst : Instance} {visit : Visit} {sibling : CompiledExpression} {text : String}

/-- The field of a visit is a field of the program. -/
theorem Program.exists_of_mem_visits (visited : visit ∈ program.visits inst) :
    ∃ field ∈ program.fields, ∃ compiled ∈ field.expressions,
      visit = ⟨program, inst, field, compiled⟩ := by
  rcases List.mem_map.mp visited with ⟨entry, mem, rfl⟩
  rcases List.mem_flatMap.mp mem with ⟨field, inFields, inField⟩
  rcases List.mem_map.mp inField with ⟨compiled, inExpressions, rfl⟩
  exact ⟨field, inFields, compiled, inExpressions, rfl⟩

/-- Every expression beside a visited one is visited, too. -/
theorem Program.sibling_mem_visits (visited : visit ∈ program.visits inst)
    (mem : sibling ∈ visit.field.expressions) :
    { visit with compiled := sibling } ∈ program.visits inst := by
  rcases exists_of_mem_visits visited with ⟨field, inFields, compiled, -, rfl⟩
  exact List.mem_map.mpr ⟨(field, sibling), mem_expressions inFields mem, rfl⟩

/-- The names of compiled expressions are words. -/
theorem Program.isWord_name (success : (compile environment tag root).outcome = .ok program)
    (visited : visit ∈ program.visits inst) (mem : sibling ∈ visit.field.expressions) :
    ∀ word ∈ sibling.name, isWord word.toList = true := by
  rcases outcome_compile_eq_ok_iff.mp success with ⟨-, flat, flattened, fieldsFrom⟩
  rcases exists_of_mem_visits visited with ⟨field, inFields, compiled, -, rfl⟩
  rcases exists_source_of_mem_expressions fieldsFrom (mem_expressions inFields mem) with
    ⟨flatField, -, source, -, wellFormed, compiledFrom⟩
  rw [compiledFrom.name]
  exact wellFormed.word

/-- A text gives the value of the expression that it stands for. -/
theorem Visit.evalNamed_of_named
    (success : (Program.compile environment tag root).outcome = .ok program)
    (visited : visit ∈ program.visits inst) (mem : sibling ∈ visit.field.expressions)
    (named : namedBy text = sibling.name) :
    visit.evalNamed text = .ofExcept (Visit.eval { visit with compiled := sibling }) := by
  rcases Program.exists_of_mem_visits visited with ⟨field, inFields, compiled, -, rfl⟩
  have found : program.find? (selectorOf field.path (some text)) = some (field, sibling) :=
    (Program.find?_named_iff success inFields).mpr ⟨rfl, mem, named.symm⟩
  exact Program.eval_of_find? found

/-- A text that stands for no expression of the field gives nil. -/
theorem Visit.evalNamed_of_unnamed
    (success : (Program.compile environment tag root).outcome = .ok program)
    (visited : visit ∈ program.visits inst)
    (unnamed : ∀ sibling ∈ visit.field.expressions, sibling.name ≠ namedBy text) :
    visit.evalNamed text =
      ⟨[.noExpression program.type (selectorOf visit.field.path (some text))], .ok .nil⟩ := by
  rcases Program.exists_of_mem_visits visited with ⟨field, inFields, compiled, -, rfl⟩
  apply Program.eval_of_find?_eq_none
  rw [Option.eq_none_iff_forall_ne_some]
  intro entry found
  rcases (Program.find?_named_iff success inFields).mp found with ⟨-, mem, name⟩
  exact unnamed entry.2 mem name

/-- The mark, under which default expressions are shown, stands for no expression. -/
theorem Visit.outcome_evalNamed_mark
    (success : (Program.compile environment tag root).outcome = .ok program)
    (visited : visit ∈ program.visits inst) : (visit.evalNamed "@").outcome = .ok .nil := by
  rw [evalNamed_of_unnamed success visited]
  intro sibling mem named
  have mark : namedBy "@" = some "" := namedBy_marked ""
  have word := Program.isWord_name success visited mem "" (named.trans mark)
  cases word

end

/-- From a visit, every expression of the same field is evaluated under the name by which
it is shown, with the value that a visit to it gives, except for the default expression:
this one is evaluated under the empty text, and `@` is the name of nothing.  Every text
gives the expression that it stands for, and nil if the field has none of that name. -/
theorem siblings_evaluated_by_names {environment : Environment} {tag : String}
    {root : RecordType} {program : Program}
    (success : (Program.compile environment tag root).outcome = .ok program) {inst : Instance}
    {visit : Visit} (visited : visit ∈ program.visits inst) :
    (∀ sibling ∈ visit.field.expressions,
      { visit with compiled := sibling } ∈ program.visits inst ∧
      (∀ text, namedBy text = sibling.name →
        visit.evalNamed text = .ofExcept (Visit.eval { visit with compiled := sibling })) ∧
      (sibling.name ≠ none → visit.evalNamed sibling.shownName =
        .ofExcept (Visit.eval { visit with compiled := sibling })) ∧
      (sibling.name = none → sibling.shownName = "@" ∧
        visit.evalNamed "" = .ofExcept (Visit.eval { visit with compiled := sibling }))) ∧
    (∀ text, (∀ sibling ∈ visit.field.expressions, sibling.name ≠ namedBy text) →
      visit.evalNamed text =
        ⟨[.noExpression program.type (selectorOf visit.field.path (some text))], .ok .nil⟩) ∧
    (visit.evalNamed "@").outcome = .ok .nil := by
  constructor
  · intro sibling mem
    have evaluated (text : String) (named : namedBy text = sibling.name) :
        visit.evalNamed text = .ofExcept (Visit.eval { visit with compiled := sibling }) :=
      Visit.evalNamed_of_named success visited mem named
    constructor
    · exact Program.sibling_mem_visits visited mem
    constructor
    · exact evaluated
    constructor
    · intro named
      apply evaluated
      rcases Option.ne_none_iff_exists'.mp named with ⟨word, name⟩
      rw [CompiledExpression.shownName, name, Option.getD_some]
      exact namedBy_of_isWord (Program.isWord_name success visited mem word name)
    · intro unnamed
      constructor
      · rw [CompiledExpression.shownName, unnamed]
        rfl
      · apply evaluated
        rw [unnamed]
        rfl
  constructor
  · intro text unnamed
    exact Visit.evalNamed_of_unnamed success visited unnamed
  · exact Visit.outcome_evalNamed_mark success visited

/-- The number of an item, which it shows, with a text beside it and a rule that
never holds. -/
def itemNumber : FieldSpec :=
  (FieldSpec.leaf "id").tag "v" "\x7b@:$\x7d\x7bx:'no'\x7d\x7by:nil\x7d"

/-- Items with numbers. -/
def items : Environment where
  catalog := ⟨[(⟨"Item"⟩, .fields [itemNumber])]⟩
  registry := .empty

/-- The field of the program of items. -/
def itemField : ProgramField where
  path := "id"
  read := ((FieldChain.field itemNumber).flatField "v" [] (Instance.as? ⟨"Item"⟩)).read
  expressions := [⟨none, "id", .ofTree "$" .current, []⟩,
    ⟨some "x", "id@x", .ofTree "'no'" (.text "no"), []⟩, ⟨some "y", "id@y", .ofTree "nil" .nil, []⟩]

/-- The program of items. -/
def itemProgram : Program where
  type := ⟨"Item"⟩
  fields := [itemField]

/-- The item with the number 7. -/
def sevenItem : Instance :=
  ⟨⟨"Item"⟩, [("id", .plain (.text "7"))]⟩

theorem items_compile : (Program.compile items "v" ⟨"Item"⟩).outcome = .ok itemProgram := by
  let source := String.ofList ['{', '@', ':', '$', '}', '{', 'x', ':', '\'', 'n', 'o', '\'', '}',
    '{', 'y', ':', 'n', 'i', 'l', '}']
  have read : Annotation.ofText .empty source =
      .ok [⟨none, .ofTree "$" .current⟩, ⟨some "x", .ofTree "'no'" (.text "no")⟩,
        ⟨some "y", .ofTree "nil" .nil⟩] := by
    unfold Annotation.ofText
    rw [String.toList_ofList]
    rfl
  have expands : Expands items.catalog [⟨"Item"⟩] [itemNumber] _ :=
    .closed (by simp [itemNumber, FieldSpec.leaf, FieldSpec.tag]) .nil
  have flattened : (items.catalog.flatten "v" ⟨"Item"⟩).outcome =
      .ok [(FieldChain.field itemNumber).flatField "v" [] (Instance.as? ⟨"Item"⟩)] :=
    Catalog.flatten_eq_ok_iff.mpr ⟨_, rfl, ⟨by decide, by decide⟩, _, expands, rfl⟩
  apply Program.outcome_compile_eq_ok_iff.mpr
  refine ⟨rfl, _, flattened, .cons ⟨rfl, rfl, _, read, ?_⟩ .nil⟩
  exact .cons ⟨rfl, rfl, rfl, .nil⟩ (.cons ⟨rfl, rfl, rfl, .nil⟩ (.cons ⟨rfl, rfl, rfl, .nil⟩ .nil))

end FieldRules

namespace FieldRules

open FieldRules.Text

attribute [local instance] RegexLibrary.empty

/-- From the visit to the rule of an item, its text is evaluated under its name, and its
number under the empty text. -/
theorem siblings_of_item_evaluated :
    let visit : Visit :=
      ⟨itemProgram, sevenItem, itemField, ⟨some "y", "id@y", .ofTree "nil" .nil, []⟩⟩
    (Program.compile items "v" ⟨"Item"⟩).outcome = .ok itemProgram ∧
      visit ∈ itemProgram.visits sevenItem ∧
      visit.evalNamed "x" = .ofExcept (.ok (.text "no")) ∧
      visit.evalNamed "" = .ofExcept (.ok (.text "7")) := by
  intro visit
  have visited : visit ∈ itemProgram.visits sevenItem :=
    List.mem_cons_of_mem _ (List.mem_cons_of_mem _ List.mem_cons_self)
  rcases siblings_evaluated_by_names items_compile visited with ⟨siblings, -⟩
  constructor
  · exact items_compile
  constructor
  · exact visited
  constructor
  · rcases siblings _ (List.mem_cons_of_mem _ List.mem_cons_self) with ⟨-, evaluated, -⟩
    exact evaluated "x" rfl
  · rcases siblings _ List.mem_cons_self with ⟨-, evaluated, -⟩
    exact evaluated "" rfl

/-- The default expression of an item gives its number, but the name under which this
expression is shown gives nil. -/
theorem shown_name_of_default_gives_nil :
    let visit (compiled : CompiledExpression) : Visit :=
      ⟨itemProgram, sevenItem, itemField, compiled⟩
    (Program.compile items "v" ⟨"Item"⟩).outcome = .ok itemProgram ∧
      ∃ compiled ∈ itemField.expressions, visit compiled ∈ itemProgram.visits sevenItem ∧
        (visit compiled).eval = .ok (.text "7") ∧
        ((visit compiled).evalNamed compiled.shownName).outcome = .ok .nil := by
  intro visit
  have visited : visit ⟨none, "id", .ofTree "$" .current, []⟩ ∈ itemProgram.visits sevenItem :=
    List.mem_cons_self
  constructor
  · exact items_compile
  · refine ⟨_, List.mem_cons_self, visited, rfl, ?_⟩
    exact Visit.outcome_evalNamed_mark items_compile visited

end FieldRules
