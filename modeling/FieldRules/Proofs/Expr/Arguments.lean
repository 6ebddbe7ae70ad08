import FieldRules.Proofs.Expr.Accepted

/-!
# Accepted calls

Between the parentheses of a call stand accepted texts with commas between them.
They are sealed, so the list is cut at those commas only, and a call whose
arguments some reader has read is accepted.
-/

namespace FieldRules.Expr

open FieldRules.Text

variable [RegexLibrary]

variable {registry : Registry}

/-! ## Arguments -/

/-- An argument as it stands between commas, with blank characters around it. -/
structure Argument (registry : Registry) where
  before : List Char
  chain : Chain
  core : List Sign
  after : List Char
  blank_before : ∀ c ∈ before, isBlank c = true
  blank_after : ∀ c ∈ after, isBlank c = true
  accepted : Accepted registry chain core

namespace Argument

/-- An argument with the blank characters around it. -/
def signs (argument : Argument registry) : List Sign :=
  plains argument.before ++ argument.core ++ plains argument.after

/-- What stands between commas. -/
def source (argument : Argument registry) : List Char :=
  spell argument.signs

/-- What is read. -/
def text (argument : Argument registry) : List Char :=
  spell argument.core

/-- The tree of an argument. -/
def tree (argument : Argument registry) : Node :=
  argument.chain.tree

/-- An argument without the backslashes of brackets of some kinds. -/
def unescape (kinds : List Bracket) (argument : Argument registry) : Argument registry :=
  { argument with
    core := Text.unescape kinds argument.core
    accepted := argument.accepted.unescape kinds }

variable (argument : Argument registry) (kinds : List Bracket)

theorem signs_unescape : (argument.unescape kinds).signs = Text.unescape kinds argument.signs := by
  simp [signs, unescape]

theorem isSealed_signs : Sealed argument.signs :=
  ((sealed_blank argument.blank_before).append argument.accepted.isSealed).append
    (sealed_blank argument.blank_after)

theorem source_eq : argument.source = argument.before ++ argument.text ++ argument.after := by
  simp [source, signs, text]

theorem trim_source : trim argument.source = argument.text := by
  rw [source_eq]
  exact trim_surrounded argument.accepted.trimmed argument.blank_before argument.blank_after

theorem shown : isBlankText argument.source = false := by
  obtain ⟨c, mem, shown⟩ := argument.accepted.trimmed.exists_mem
  rw [source_eq]
  exact isBlankText_eq_false (by simp [text, mem]) shown

theorem unsliced : Unsliced argument.source := by
  have sliced := argument.isSealed_signs.sliced [] 0
  rwa [unescape_none] at sliced

theorem portable : Portable registry argument.tree argument.core :=
  .of_accepted argument.accepted

end Argument

/-! ## Argument lists -/

/-- The signs of an argument list. -/
inductive ArgumentList (registry : Registry) : List (Argument registry) → List Sign → Prop
  | none {blank : List Char} (isBlank : ∀ c ∈ blank, isBlank c = true) :
      ArgumentList registry [] (plains blank)
  | some {arguments : List (Argument registry)} (nonempty : arguments ≠ []) :
      ArgumentList registry arguments ([.plain ','].intercalate (arguments.map Argument.signs))

omit [RegexLibrary] in
theorem nested_intercalate {parts : List (List Sign)} (nested : ∀ part ∈ parts, Nested part) :
    Nested ([.plain ','].intercalate parts) := by
  have comma : Nested [.plain ','] := by
    refine .of_noBrackets (List.forall_mem_singleton.mpr ⟨by decide, by decide⟩)
      (List.forall_mem_singleton.mpr ?_)
    rintro c ⟨⟩ bracket
    cases bracket <;> rfl
  induction parts with
  | nil => exact .nil
  | cons part parts ih =>
      have first := nested part List.mem_cons_self
      cases parts with
      | nil => rwa [List.intercalate_singleton]
      | cons next parts =>
          rw [List.intercalate_cons_cons]
          exact (first.append comma).append (ih fun part mem => nested part (List.mem_cons_of_mem _ mem))

namespace ArgumentList

variable {arguments : List (Argument registry)} {signs : List Sign}

theorem nested (listed : ArgumentList registry arguments signs) : Nested signs := by
  cases listed with
  | none isBlank => exact (sealed_blank isBlank).toNested
  | some =>
      refine nested_intercalate fun part mem => ?_
      obtain ⟨argument, -, rfl⟩ := List.mem_map.mp mem
      exact argument.isSealed_signs.toNested

theorem unescape (listed : ArgumentList registry arguments signs) (kinds : List Bracket) :
    ArgumentList registry (arguments.map (Argument.unescape kinds)) (Text.unescape kinds signs) := by
  cases listed with
  | none isBlank =>
      rw [unescape_plains]
      exact .none isBlank
  | some nonempty =>
      have parts : (arguments.map Argument.signs).map (Text.unescape kinds) =
          (arguments.map (Argument.unescape kinds)).map Argument.signs := by
        simp [Argument.signs_unescape]
      rw [unescape_intercalate, parts]
      exact .some (by simpa using nonempty)

theorem spell_signs :
    spell ([.plain ','].intercalate (arguments.map Argument.signs)) =
      [','].intercalate (arguments.map Argument.source) := by
  rw [spell_intercalate, List.map_map]
  rfl

/-- An argument list is cut into the texts of its arguments. -/
theorem pieces_eq (listed : ArgumentList registry arguments signs) :
    pieces (spell signs) = arguments.map Argument.text := by
  cases listed with
  | none isBlank =>
      have blank := List.all_eq_true.mpr isBlank
      rw [spell_plains, pieces, isBlankText, blank]
      rfl
  | some nonempty =>
      rw [spell_signs, pieces_intercalate (by simpa using nonempty) ?_ ?_, List.map_map]
      · exact List.map_congr_left fun argument _ => argument.trim_source
      · intro text mem
        obtain ⟨argument, -, rfl⟩ := List.mem_map.mp mem
        exact argument.unsliced
      · obtain ⟨argument, mem⟩ := List.exists_mem_of_ne_nil arguments nonempty
        obtain ⟨c, inText, shown⟩ := List.all_eq_false.mp argument.shown
        have inside := infix_intercalate [','] (List.mem_map_of_mem (f := Argument.source) mem)
        exact List.all_eq_false.mpr ⟨c, inside.subset inText, shown⟩

/-- No argument is longer than the list. -/
theorem length_text_le (listed : ArgumentList registry arguments signs)
    {argument : Argument registry} (mem : argument ∈ arguments) :
    argument.text.length ≤ (spell signs).length := by
  cases listed with
  | none => cases mem
  | some =>
      rw [spell_signs]
      refine le_trans ?_ (infix_intercalate [','] (List.mem_map_of_mem mem)).length_le
      rw [argument.source_eq]
      simp only [List.length_append]
      omega

end ArgumentList

/-! ## Calls -/

omit [RegexLibrary] in
/-- A text that starts and ends visibly is a quoted literal when it stands between
quotes. -/
theorem quotedLiteral?_eq_some_iff {text s : List Char} (trimmed : Trimmed text) :
    quotedLiteral? text = some s ↔ Quotable s ∧ text = singleQuoted s := by
  rw [quotedLiteral?, trim_eq_self trimmed]
  constructor
  · intro literal
    cases scanned : scanPaired '\'' '\'' text with
    | none => simp [scanned] at literal
    | some scan =>
        obtain ⟨content, rest⟩ := scan
        simp only [scanned] at literal
        split_ifs at literal with blank
        cases literal
        obtain ⟨quotable, split⟩ := quoted_of_scanPaired scanned
        have rest_nil : rest = [] := by
          by_contra some
          obtain ⟨c, last, shown⟩ := trimmed.last
          rw [split, List.getLast?_append_of_ne_nil _ some] at last
          have blankLast := List.all_eq_true.mp blank c (List.mem_of_getLast? last)
          rw [shown] at blankLast
          cases blankLast
        exact ⟨quotable, by rw [split, rest_nil, List.append_nil]⟩
  · rintro ⟨quotable, rfl⟩
    have scanned : scanPaired '\'' '\'' (singleQuoted s) = some (s, []) := by
      simpa using scanPaired_singleQuoted quotable []
    rw [scanned]
    rfl

/-- Quotes are the only sign of an argument that is a literal. -/
theorem Argument.quotedLiteral?_eq_some_iff (argument : Argument registry) (s : List Char) :
    quotedLiteral? argument.text = some s ↔ argument.core = [.quoted s] := by
  have wellFormed := argument.accepted.isSealed.wellFormed
  rw [text, Expr.quotedLiteral?_eq_some_iff argument.accepted.trimmed, ← spell_quoted]
  constructor
  · rintro ⟨quotable, same⟩
    exact spell_injective wellFormed (List.forall_mem_singleton.mpr quotable) same
  · intro same
    rw [same]
    exact ⟨wellFormed (.quoted s) (by simp [same]), rfl⟩

theorem Argument.quotedLiteral?_unescape (argument : Argument registry) (kinds : List Bracket) :
    quotedLiteral? (argument.unescape kinds).text = quotedLiteral? argument.text := by
  refine Option.ext fun s => ?_
  rw [quotedLiteral?_eq_some_iff, quotedLiteral?_eq_some_iff]
  exact unescape_eq_quoted_iff

/-- Whatever a reader reads is spelled by portable signs. -/
def ReadsPortable (registry : Registry) (expression : ExpressionReader) : Prop :=
  ∀ text tree, expression text = .ok tree → ∃ signs, text = spell signs ∧ Portable registry tree signs

/-- A reader of portable texts reads an argument as its tree. -/
theorem ReadsPortable.tree_eq {expression : ExpressionReader}
    (portable : ReadsPortable registry expression) (argument : Argument registry) {tree : Node}
    (read : expression argument.text = .ok tree) : tree = argument.tree := by
  obtain ⟨signs, same, found⟩ := portable _ _ read
  obtain rfl := spell_injective argument.accepted.isSealed.wellFormed found.isSealed.wellFormed same
  exact found.tree_eq argument.portable

/-- A call whose arguments a reader of portable texts has read is read again from
arguments without some backslashes. -/
theorem readCallOf_unescape {arguments : List (Argument registry)} {callee : Callee}
    {nodes : List Node} {expression : ExpressionReader} {name : String} {depth : Nat}
    (portable : ReadsPortable registry expression) (kinds : List Bracket)
    (fits : ∀ argument ∈ arguments, (argument.unescape kinds).text.length < depth)
    (read : readCallOf registry expression name (arguments.map Argument.text) =
      .ok (callee, nodes)) :
    readCallOf registry (readNode registry depth) name
      ((arguments.map (Argument.unescape kinds)).map Argument.text) = .ok (callee, nodes) := by
  refine readCallOf_again ?_ read
  rw [List.map_map, List.forall₂_map_left_iff, List.forall₂_map_right_iff, List.forall₂_same]
  intro argument mem
  refine ⟨fun tree treeRead => ?_, argument.quotedLiteral?_unescape kinds⟩
  rw [portable.tree_eq argument treeRead]
  exact (argument.unescape kinds).portable.reads (fits argument mem)

/-- A call of a word with an argument list is accepted when a reader of portable
texts reads its arguments. -/
theorem accepted_call (bangs : Nat) {name : List Char} {raw : List Sign}
    {arguments : List (Argument registry)} {callee : Callee} {nodes : List Node}
    {expression : ExpressionReader} (portable : ReadsPortable registry expression)
    (identifier : isIdentifier name = true) (balanced : Balanced .round raw)
    (listed : ArgumentList registry arguments (unescape [.round] raw))
    (read : readCallOf registry expression (.ofList name) (arguments.map Argument.text) =
      .ok (callee, nodes)) :
    Accepted registry ⟨.call (negates bangs) callee nodes, []⟩
      (plains (List.replicate bangs '!') ++ plains name ++ (.plain '(' :: raw ++ [.plain ')'])) := by
  have nested : Nested raw := listed.nested.of_unescape balanced
  have enclosed : Sealed (.plain Bracket.round.left :: raw ++ [.plain Bracket.round.right]) :=
    .enclosed nested (by decide)
  have named : Sealed (plains name) := .plains (noMarks_of_isIdentifier identifier)
  refine .of_operand (((sealed_bangs bangs).append named).append enclosed) rfl (by simp)
    fun kinds => ?_
  have split : spell (unescape kinds
      (plains (List.replicate bangs '!') ++ plains name ++ (.plain '(' :: raw ++ [.plain ')']))) =
        List.replicate bangs '!' ++ name ++ ('(' :: spell (unescape kinds raw) ++ [')']) := by
    simp [Sign.unescape, Sign.text]
  have parentheses : Trimmed ('(' :: spell (unescape kinds raw) ++ [')']) :=
    .enclosed (by decide) (by decide) _
  have content := listed.unescape kinds
  have cut := content.pieces_eq
  rw [split]
  refine .of_operand ?_ ?_ fun depth enough after ends => ?_
  · rw [List.append_assoc]
    exact trimmed_bangs bangs ((trimmed_of_isIdentifier identifier).append parentheses)
  · rw [List.append_assoc]
    exact startsOperand_bangs bangs ((startsOperand_of_isIdentifier identifier).append _)
  refine readOperand_call bangs identifier (nested.encloses .round kinds) ?_ ?_
  · simp only [cut, List.map_map, List.any_map, List.any_eq_false, Function.comp_apply,
      List.isEmpty_iff]
    exact fun argument _ => (argument.unescape kinds).accepted.trimmed.ne_nil
  rw [cut]
  refine readCallOf_unescape portable kinds (fun argument mem => ?_) read
  calc (argument.unescape kinds).text.length
      ≤ (spell (unescape kinds (unescape [.round] raw))).length :=
        content.length_text_le (List.mem_map_of_mem mem)
    _ ≤ (spell (unescape kinds raw)).length := by
        rw [unescape_comm]
        exact length_spell_unescape_le _ _
    _ < depth := by
        simp only [List.length_append, List.length_cons] at enough
        omega

end FieldRules.Expr
