import FieldRules.Proofs.Expr.Annotation
import FieldRules.Proofs.Expr.Enclosing

/-!
# Annotations are read as their blocks

Blocks that stand one behind the other are read as one expression each.  What is
read as an expression holds no brace outside quotes, so the scan for the closing
brace of a block leaves its name and its body as they stand, and no colon of a body
is the one that ends the name.

The reader stops at the first block whose name stands in an earlier one.
-/

namespace FieldRules

open FieldRules.Text FieldRules.Expr

variable [RegexLibrary]

variable {registry : Registry}

/-! ## Blocks as they are written -/

/-- Layout in front of a text and behind it. -/
structure Layout where
  before : List Char
  after : List Char
  gap_before : IsGap before
  gap_after : IsGap after

/-- A text with layout around it. -/
def Layout.around (layout : Layout) (text : List Char) : List Char :=
  layout.before ++ text ++ layout.after

omit [RegexLibrary] in
theorem Layout.trim_around (layout : Layout) (text : List Char) :
    trim (layout.around text) = trim text :=
  trim_between layout.gap_before.isBlank layout.gap_after.isBlank

/-- A block: the name of an expression and a text that is read as the expression,
with layout around both and behind the block. -/
structure Block (registry : Registry) where
  name : String
  body : String
  expression : Expression
  aroundName : Layout
  aroundBody : Layout
  behind : List Char
  isName : name = defaultName ∨ isWord name.toList = true
  read : Expression.ofText registry body = .ok expression
  gap_behind : IsGap behind

namespace Block

open Annotation (splitAtColon readName readBlock)

variable (block : Block registry)

/-- What stands between the braces. -/
def content : List Char :=
  block.aroundName.around block.name.toList ++ ':' :: block.aroundBody.around block.body.toList

/-- The text of a block. -/
def text : List Char :=
  '{' :: block.content ++ '}' :: block.behind

/-- What a block is read as: the default expression has no name, and the source of
an expression is its text without blank characters around it. -/
def named : NamedExpression where
  name := if block.name = defaultName then none else some block.name
  expression := { block.expression with source := .ofList (trim block.body.toList) }

/-! ## Names -/

theorem name_char {c : Char} (mem : c ∈ block.name.toList) : c = '@' ∨ isWordChar c = true := by
  rcases block.isName with isDefault | word
  · rw [isDefault] at mem
    exact .inl (List.mem_singleton.mp mem)
  · rw [isWord, Bool.and_eq_true] at word
    exact .inr (List.all_eq_true.mp word.2 c mem)

theorem trimmed_name : Trimmed block.name.toList := by
  apply Trimmed.of_forall
  · intro empty
    rcases block.isName with isDefault | word
    · rw [isDefault] at empty
      cases empty
    · rw [empty] at word
      cases word
  · intro c mem
    rcases block.name_char mem with rfl | word
    · decide
    · exact isBlank_of_isWordChar word

/-- The name in front of the colon holds neither marks nor another colon. -/
theorem name_plain {c : Char} (mem : c ∈ block.aroundName.around block.name.toList) :
    c ≠ ':' ∧ c ∉ marks := by
  have blank_or_name : isBlank c = true ∨ c = '@' ∨ isWordChar c = true := by
    rcases List.mem_append.mp mem with mem | mem
    · rcases List.mem_append.mp mem with mem | mem
      · exact .inl (block.aroundName.gap_before.isBlank c mem)
      · exact .inr (block.name_char mem)
    · exact .inl (block.aroundName.gap_after.isBlank c mem)
  constructor
  · rintro rfl
    revert blank_or_name
    decide
  · intro mark
    rcases blank_or_name with blank | rfl | word
    · rw [marks_shown c mark] at blank
      cases blank
    · exact absurd mark (by decide)
    · rw [marks_not_word c mark] at word
      cases word

/-- The written name of a block is the one that is shown. -/
theorem shownName_named : block.named.shownName = block.name := by
  rw [NamedExpression.shownName, named]
  split_ifs with isDefault
  · exact isDefault.symm
  · rfl

/-- Blocks under different names are read under different names. -/
theorem distinct_named {blocks : List (Block registry)} (distinct : (blocks.map Block.name).Nodup) :
    ((blocks.map Block.named).map NamedExpression.name).Nodup := by
  have shown : blocks.map Block.name =
      ((blocks.map Block.named).map NamedExpression.name).map (·.getD defaultName) := by
    rw [List.map_map, List.map_map]
    exact List.map_congr_left fun block _ => block.shownName_named.symm
  rw [shown] at distinct
  exact distinct.of_map _

theorem readName_name :
    readName (block.aroundName.around block.name.toList) = some block.named.name := by
  rw [readName, Layout.trim_around, trim_eq_self block.trimmed_name, named]
  by_cases isDefault : block.name = defaultName
  · rw [if_pos (congrArg String.toList isDefault), if_pos isDefault]
  · have other : block.name.toList ≠ defaultName.toList :=
      fun same => isDefault (String.toList_inj.mp same)
    rw [if_neg other, if_pos (block.isName.resolve_left isDefault), if_neg isDefault,
      String.ofList_toList]

theorem splitAtColon_content : splitAtColon block.content =
    some (block.aroundName.around block.name.toList,
      block.aroundBody.around block.body.toList) := by
  have before : ∀ c ∈ block.aroundName.around block.name.toList, decide (c ≠ ':') = true :=
    fun c mem => decide_eq_true (block.name_plain mem).1
  have stops : ∀ c ∈ (':' :: block.aroundBody.around block.body.toList).head?,
      decide (c ≠ ':') = false := by
    rintro c ⟨⟩
    rfl
  rw [splitAtColon, content, dropWhile_run before stops, takeWhile_run before stops]

/-! ## Bodies -/

theorem ofText_body :
    Expression.ofText registry (.ofList (trim (block.aroundBody.around block.body.toList))) =
      .ok block.named.expression := by
  obtain ⟨tree, treeRead, same⟩ := map_eq_ok_iff.mp block.read
  rw [Layout.trim_around, Expression.ofText, String.toList_ofList, ofText_trim treeRead, named,
    ← same]
  rfl

theorem readBlock_content : readBlock registry block.content = .ok block.named := by
  simp only [readBlock, splitAtColon_content, readName_name, ofText_body, bind_ok]

/-! ## The closing brace -/

theorem exists_signs : ∃ signs, Nested signs ∧ spell signs = block.content := by
  obtain ⟨tree, treeRead, -⟩ := map_eq_ok_iff.mp block.read
  obtain ⟨signs, same, portable⟩ := ofText_eq_ok_iff.mp treeRead
  have name : Sealed (plains (block.aroundName.around block.name.toList)) :=
    .plains fun c mem => (block.name_plain mem).2
  have colon : Sealed (plains [':']) := .plains (List.forall_mem_singleton.mpr (by decide))
  have before := sealed_blank block.aroundBody.gap_before.isBlank
  have after := sealed_blank block.aroundBody.gap_after.isBlank
  have body := (before.append portable.isSealed).append after
  refine ⟨_, ((name.append colon).append body).toNested, ?_⟩
  simp [content, Layout.around, same]

/-- The scan for the closing brace of a block ends at its own brace and takes
nothing away. -/
theorem scanPaired_text (rest : List Char) :
    scanPaired '{' '}' (block.text ++ rest) = some (block.content, block.behind ++ rest) := by
  obtain ⟨signs, nested, spelled⟩ := block.exists_signs
  have cut := nested.encloses .curly [] (block.behind ++ rest)
  rw [unescape_none, unescape_none, nested.unescape_curly, spelled] at cut
  simpa [text, Bracket.left, Bracket.right] using cut

end Block

/-! ## Annotations of blocks -/

namespace Annotation

variable {steps : Nat} {earlier : Annotation} {gap rest : List Char}

theorem readBlocks_gap (layout : IsGap gap) :
    readBlocks registry steps earlier (gap ++ rest) = readBlocks registry steps earlier rest := by
  cases steps with
  | zero => rfl
  | succ steps =>
      have skipped : skipLayout (gap ++ rest) = skipLayout rest :=
        List.dropWhile_append_of_pos layout
      rw [readBlocks, readBlocks, skipped]

/-- One block is read, unless its name stands in an earlier one. -/
theorem readBlocks_block (block : Block registry) :
    readBlocks registry (steps + 1) earlier (block.text ++ rest) =
      if block.named.name ∈ earlier.map NamedExpression.name then
        .error (.duplicateName block.name)
      else readBlocks registry steps (earlier ++ [block.named]) rest := by
  have cut := block.scanPaired_text rest
  have shown : skipLayout (block.text ++ rest) = block.text ++ rest := rfl
  have opens : (block.text ++ rest).head? = some '{' := rfl
  rw [readBlocks, shown]
  split
  · rename_i nothing
    cases nothing
  · rw [opens, if_neg (not_not_intro rfl), cut]
    simp only [block.readBlock_content, bind_ok, block.shownName_named, List.any_eq_true,
      decide_eq_true_eq, List.mem_map]
    split_ifs with taken
    · rfl
    · rw [readBlocks_gap block.gap_behind]

/-- Blocks under names that do not repeat are read in order. -/
theorem readBlocks_flatMap {blocks : List (Block registry)}
    (distinct : ((earlier ++ blocks.map Block.named).map NamedExpression.name).Nodup) :
    readBlocks registry (blocks.length + steps) earlier (blocks.flatMap Block.text ++ rest) =
      readBlocks registry steps (earlier ++ blocks.map Block.named) rest := by
  induction blocks generalizing earlier with
  | nil => simp
  | cons block blocks ih =>
      have fresh : block.named.name ∉ earlier.map NamedExpression.name := by
        intro taken
        rw [List.map_append, List.nodup_append] at distinct
        exact distinct.2.2 _ taken _ List.mem_cons_self rfl
      -- the block that was read joins the earlier ones
      rw [List.map_cons, List.append_cons] at distinct ⊢
      rw [List.length_cons, Nat.add_right_comm, List.flatMap_cons, List.append_assoc,
        readBlocks_block, if_neg fresh, ih distinct]

/-- A text that starts with a brace, or holds layout only, is read block by block. -/
theorem ofText_eq_readBlocks {text : List Char}
    (braced : ∀ c ∈ (skipLayout text).head?, c = '{') :
    ofText registry (.ofList text) =
      readBlocks registry ((skipLayout text).length + 1) [] (skipLayout text) := by
  rw [ofText, String.toList_ofList]
  generalize shown : skipLayout text = visible at braced
  cases visible with
  | nil => rfl
  | cons c rest =>
      obtain rfl : c = '{' := braced c rfl
      rfl

theorem length_le_flatMap (blocks : List (Block registry)) :
    blocks.length ≤ (blocks.flatMap Block.text).length := by
  induction blocks with
  | nil => exact Nat.le_refl 0
  | cons block blocks ih =>
      rw [List.flatMap_cons, List.length_append, List.length_cons, Nat.add_comm]
      exact Nat.add_le_add (Nat.succ_le_succ (Nat.zero_le _)) ih

/-- An annotation of blocks is read from its first block on. -/
theorem ofText_blocks {lead : List Char} (layout : IsGap lead) (blocks : List (Block registry)) :
    ∃ steps, blocks.length ≤ steps ∧
      ofText registry (.ofList (lead ++ blocks.flatMap Block.text)) =
        readBlocks registry (steps + 1) [] (blocks.flatMap Block.text) := by
  have braced : ∀ c ∈ (blocks.flatMap Block.text).head?, c = '{' := by
    cases blocks with
    | nil => rintro c ⟨⟩
    | cons block blocks =>
        rintro c ⟨⟩
        rfl
  have shown : skipLayout (lead ++ blocks.flatMap Block.text) = blocks.flatMap Block.text := by
    refine skipLayout_append layout fun c mem => ?_
    rw [braced c mem]
    rfl
  refine ⟨_, length_le_flatMap blocks, ?_⟩
  rw [ofText_eq_readBlocks (by rwa [shown]), shown]

variable {lead : List Char} {blocks : List (Block registry)}

theorem ofText_of_distinct (layout : IsGap lead) (distinct : (blocks.map Block.name).Nodup) :
    ofText registry (.ofList (lead ++ blocks.flatMap Block.text)) =
      .ok (blocks.map Block.named) := by
  obtain ⟨steps, enough, read⟩ := ofText_blocks layout blocks
  have distinct : (([] ++ blocks.map Block.named).map NamedExpression.name).Nodup :=
    Block.distinct_named distinct
  obtain ⟨more, rfl⟩ := Nat.exists_eq_add_of_le enough
  have run : readBlocks registry (blocks.length + (more + 1)) [] (blocks.flatMap Block.text ++ []) =
      .ok (blocks.map Block.named) := readBlocks_flatMap distinct
  rw [List.append_nil] at run
  rw [read, Nat.add_assoc, run]

theorem ofText_of_repeated (layout : IsGap lead) {earlier later : List (Block registry)}
    {block : Block registry} (distinct : (earlier.map Block.name).Nodup)
    (repeated : block.name ∈ earlier.map Block.name) :
    ofText registry (.ofList (lead ++ (earlier ++ block :: later).flatMap Block.text)) =
      .error (.duplicateName block.name) := by
  obtain ⟨steps, enough, read⟩ := ofText_blocks layout (earlier ++ block :: later)
  have distinct : (([] ++ earlier.map Block.named).map NamedExpression.name).Nodup :=
    Block.distinct_named distinct
  have taken : block.named.name ∈ ([] ++ earlier.map Block.named).map NamedExpression.name := by
    obtain ⟨other, mem, same⟩ := List.mem_map.mp repeated
    have sameName : other.named.name = block.named.name := by
      rw [Block.named, Block.named, same]
    exact sameName ▸ List.mem_map_of_mem (List.mem_map_of_mem mem)
  obtain ⟨more, rfl⟩ := Nat.exists_eq_add_of_le enough
  have count : (earlier ++ block :: later).length + more + 1 =
      earlier.length + (later.length + more + 1 + 1) := by
    rw [List.length_append, List.length_cons]
    omega
  rw [read, count, List.flatMap_append, List.flatMap_cons, readBlocks_flatMap distinct,
    readBlocks_block, if_pos taken]

end Annotation

omit [RegexLibrary] in
/-- The first item whose key stands in an earlier one. -/
theorem exists_first_repetition {α β : Type} {key : α → β} {items : List α}
    (repeats : ¬ (items.map key).Nodup) :
    ∃ earlier item later, items = earlier ++ item :: later ∧ (earlier.map key).Nodup ∧
      key item ∈ earlier.map key := by
  induction items using List.reverseRecOn with
  | nil => exact absurd List.nodup_nil repeats
  | append_singleton items item ih =>
      by_cases distinct : (items.map key).Nodup
      · refine ⟨items, item, [], rfl, distinct, ?_⟩
        by_contra fresh
        apply repeats
        rw [List.map_append, List.map_singleton]
        exact List.concat_eq_append ▸ distinct.concat fresh
      · obtain ⟨earlier, first, later, rfl, found⟩ := ih distinct
        exact ⟨earlier, first, later ++ [item], by simp, found⟩

/-- Annotations hold what their blocks say.  Blocks under different names, with any
layout in front of them, between them and around their names and bodies, are read as
their expressions in order.  Otherwise the reader reports the first name that stands
in an earlier block.  The names in an annotation that is read are different. -/
theorem annotation_read_as_blocks {registry : Registry} :
    (∀ (lead : List Char) (blocks : List (Block registry)), IsGap lead →
      ((blocks.map Block.name).Nodup →
        Annotation.ofText registry (.ofList (lead ++ blocks.flatMap Block.text)) =
          .ok (blocks.map Block.named)) ∧
      (¬ (blocks.map Block.name).Nodup →
        ∃ earlier block later, blocks = earlier ++ block :: later ∧
          (earlier.map Block.name).Nodup ∧ block.name ∈ earlier.map Block.name ∧
          Annotation.ofText registry (.ofList (lead ++ blocks.flatMap Block.text)) =
            .error (.duplicateName block.name))) ∧
    ∀ source blocks, Annotation.ofText registry source = .ok blocks →
      (blocks.map NamedExpression.name).Nodup := by
  constructor
  · intro lead blocks layout
    constructor
    · exact Annotation.ofText_of_distinct layout
    · intro repeats
      obtain ⟨earlier, block, later, rfl, distinct, repeated⟩ := exists_first_repetition repeats
      exact ⟨earlier, block, later, rfl, distinct, repeated,
        Annotation.ofText_of_repeated layout distinct repeated⟩
  · intro source blocks read
    have wellFormed := Annotation.wellFormed_of_ofText read
    exact wellFormed.distinct

/-- The default expression `'}:'`, with layout around the colon and behind the block. -/
def quotedBraceBlock : Block .empty where
  name := "@"
  body := .ofList ['\'', '}', ':', '\'']
  expression := .ofTree (.ofList ['\'', '}', ':', '\'']) (.text "\x7d:")
  aroundName := ⟨[], [' '], isGap_nil, List.forall_mem_singleton.mpr rfl⟩
  aroundBody := ⟨[' '], [], List.forall_mem_singleton.mpr rfl, isGap_nil⟩
  behind := ['\n']
  isName := .inl rfl
  read := by
    rw [Expression.ofText, String.toList_ofList]
    rfl
  gap_behind := List.forall_mem_singleton.mpr rfl

/-- The expression `$` under the name `n`. -/
def currentValueBlock : Block .empty where
  name := "n"
  body := .ofList ['$']
  expression := .ofTree (.ofList ['$']) (.selector .current [])
  aroundName := ⟨[], [], isGap_nil, isGap_nil⟩
  aroundBody := ⟨[], [], isGap_nil, isGap_nil⟩
  behind := []
  isName := .inr (by decide)
  read := by
    rw [Expression.ofText, String.toList_ofList]
    rfl
  gap_behind := isGap_nil

end FieldRules

namespace FieldRules

open FieldRules.Text FieldRules.Expr

attribute [local instance] RegexLibrary.empty

/-- A quoted brace and a quoted colon in a body, and a block that is written twice. -/
theorem quoted_brace_read_in_block :
    let quoted : List Char := ['{', '@', ' ', ':', ' ', '\'', '}', ':', '\'', '}', '\n']
    let current : List Char := ['{', 'n', ':', '$', '}']
    let named : Annotation :=
      [⟨none, .ofTree (.ofList ['\'', '}', ':', '\'']) (.text "\x7d:")⟩,
        ⟨some "n", .ofTree (.ofList ['$']) (.selector .current [])⟩]
    Annotation.ofText .empty (.ofList ([' '] ++ (quoted ++ current))) = .ok named ∧
      (named.map NamedExpression.name).Nodup ∧
      Annotation.ofText .empty (.ofList (current ++ current)) = .error (.duplicateName "n") := by
  intro quoted current named
  have quotedText : quotedBraceBlock.text = quoted := by
    simp [quotedBraceBlock, quoted, Block.text, Block.content, Layout.around]
  have currentText : currentValueBlock.text = current := by
    simp [currentValueBlock, current, Block.text, Block.content, Layout.around]
  have bothNamed : [quotedBraceBlock, currentValueBlock].map Block.named = named := by
    simp only [List.map_cons, List.map_nil, Block.named, quotedBraceBlock, currentValueBlock,
      String.toList_ofList]
    rfl
  obtain ⟨blocks, accepted⟩ := @annotation_read_as_blocks _ .empty
  have distinct : ["@", "n"].Nodup := by decide
  have read := (blocks [' '] [quotedBraceBlock, currentValueBlock]
    (List.forall_mem_singleton.mpr rfl)).1 distinct
  have repeats : ¬ ["n", "n"].Nodup := by decide
  obtain ⟨earlier, block, later, split, -, -, failed⟩ :=
    (blocks [] [currentValueBlock, currentValueBlock] isGap_nil).2 repeats
  have mem : block ∈ [currentValueBlock, currentValueBlock] :=
    split ▸ List.mem_append_right _ List.mem_cons_self
  have isCurrent : block = currentValueBlock := by simpa using mem
  rw [isCurrent] at failed
  simp only [List.flatMap_cons, List.flatMap_nil, List.append_nil, List.nil_append, bothNamed,
    quotedText, currentText] at read failed
  exact ⟨read, accepted _ _ read, failed⟩

end FieldRules
