import FieldRules.Proofs.Expr.ReadableOperands
import FieldRules.Proofs.Text.Sealed

/-!
# Accepted texts

A text that is accepted as a chain of operands is sealed, and it is read as that
chain wherever it stands, also when scans around it have taken backslashes of
brackets away.  With layout around it, it is portable: it may be put in brackets
and is read there as the same tree.

Every kind of operand is accepted when the texts in its brackets are portable,
and so are accepted texts with an operator between them.
-/

namespace FieldRules.Expr

open FieldRules.Text

variable {text : List Char}

/-! ## Words and layout -/

theorem sealed_blank (blank : ∀ c ∈ text, isBlank c = true) : Sealed (plains text) :=
  .plains fun _ mem mark => absurd (blank _ mem) (by simp [marks_shown _ mark])

theorem isSealed_operator {before gap : List Char} (gap_before : IsGap before)
    (gap_after : IsGap gap) (operator : Operator) :
    Sealed (plains (before ++ operator.symbol ++ gap)) := by
  rw [plains_append, plains_append]
  exact ((sealed_blank gap_before.isBlank).append (.plains (symbol_not_marks operator))).append
    (sealed_blank gap_after.isBlank)

theorem noMarks_of_isIdentifier (identifier : isIdentifier text = true) :
    ∀ c ∈ text, c ∉ marks := by
  intro c mem mark
  have word := isWordChar_of_isIdentifier identifier mem
  rw [marks_not_word c mark] at word
  cases word

theorem noMarks_of_isFieldPath (path : isFieldPath text = true) : ∀ c ∈ text, c ∉ marks := by
  intro c mem mark
  rcases isWordChar_of_isFieldPath path mem with word | rfl
  · rw [marks_not_word c mark] at word
    cases word
  · exact absurd mark (by decide)

theorem startsOperand_of_isIdentifier (identifier : isIdentifier text = true) :
    StartsOperand text := by
  refine .of_trimmed (trimmed_of_isIdentifier identifier) ?_
  have noEquals : (text ++ []).head? ≠ some '=' := head_ne_of_isIdentifier identifier (by decide)
  rwa [List.append_nil] at noEquals

/-! ## Exclamation marks in front -/

theorem noMarks_bangs (bangs : Nat) : ∀ c ∈ List.replicate bangs '!', c ∉ marks := by
  intro c mem
  obtain rfl := List.eq_of_mem_replicate mem
  decide

theorem sealed_bangs (bangs : Nat) : Sealed (plains (List.replicate bangs '!')) :=
  .plains (noMarks_bangs bangs)

theorem trimmed_bangs (bangs : Nat) (trimmed : Trimmed text) :
    Trimmed (List.replicate bangs '!' ++ text) := by
  cases bangs with
  | zero => exact trimmed
  | succ bangs =>
      refine .append (.of_forall (by simp [List.replicate_succ]) fun c mem => ?_) trimmed
      obtain rfl := List.eq_of_mem_replicate mem
      decide

theorem startsOperand_bangs (bangs : Nat) (starts : StartsOperand text) :
    StartsOperand (List.replicate bangs '!' ++ text) := by
  cases bangs with
  | zero => exact starts
  | succ bangs => exact ⟨'!', rfl, by decide⟩

/-! ## Brackets and starts of selectors -/

/-- Signs in square brackets, one behind the other. -/
def bracketedSigns (raws : List (List Sign)) : List Sign :=
  raws.flatMap fun raw => .plain '[' :: raw ++ [.plain ']']

theorem spell_unescape_bracketedSigns (kinds : List Bracket) (raws : List (List Sign)) :
    spell (unescape kinds (bracketedSigns raws)) =
      bracketed (raws.map fun raw => spell (unescape kinds raw)) := by
  induction raws with
  | nil => rfl
  | cons raw raws ih =>
      simp only [bracketedSigns, bracketed, List.flatMap_cons, List.map_cons, unescape_append,
        spell_append] at ih ⊢
      rw [ih]
      simp [Sign.unescape, Sign.text]

theorem sealed_bracketedSigns {raws : List (List Sign)} (nested : ∀ raw ∈ raws, Nested raw) :
    Sealed (bracketedSigns raws) := by
  induction raws with
  | nil => exact .nil
  | cons raw raws ih =>
      have first : Sealed (.plain Bracket.square.left :: raw ++ [.plain Bracket.square.right]) :=
        .enclosed (nested raw List.mem_cons_self) (by decide)
      exact first.append (ih fun raw mem => nested raw (List.mem_cons_of_mem _ mem))

theorem sealed_parentheses (noMarks : ∀ c ∈ text, c ∉ marks) :
    Sealed (plains ('(' :: text ++ [')'])) := by
  have enclosed : Sealed (.plain Bracket.round.left :: plains text ++ [.plain Bracket.round.right]) :=
    .enclosed (Sealed.plains noMarks).toNested (by decide)
  simpa [plains, Bracket.left, Bracket.right] using enclosed

theorem sealed_render {origin : Origin} (wellFormed : origin.WellFormed) :
    Sealed (plains origin.render) := by
  cases origin with
  | field path slot =>
      rw [render_field, plains_append]
      have selects : Sealed (plains ['$']) := .plains (List.forall_mem_singleton.mpr (by decide))
      exact (sealed_parentheses (noMarks_of_isFieldPath wellFormed)).append selects
  | _ => exact .plains (by simp [Origin.render]; decide)

variable {origin : Origin} {head : List Char}

theorem SelectorHead.isSealed (start : SelectorHead origin head) : Sealed (plains head) := by
  cases start with
  | render wellFormed => exact sealed_render wellFormed
  | emptyPath noPath =>
      have wellFormed : origin.WellFormed := by
        cases origin with
        | field path slot => cases noPath
        | _ => trivial
      have split : '(' :: [] ++ ')' :: origin.render = ('(' :: [] ++ [')']) ++ origin.render := rfl
      rw [split, plains_append]
      exact (sealed_parentheses (List.forall_mem_nil _)).append (sealed_render wellFormed)

theorem SelectorHead.trimmed (start : SelectorHead origin head) : Trimmed head := by
  cases start with
  | render => exact trimmed_render origin
  | emptyPath =>
      have parentheses : Trimmed ('(' :: [] ++ [')']) := .enclosed (by decide) (by decide) _
      exact parentheses.append (trimmed_render origin)

variable [RegexLibrary]

variable {registry : Registry} {chain : Chain} {tree : Node} {signs : List Sign}

/-! ## Accepted and portable signs -/

/-- Signs that are read as a chain wherever they stand.  Only quotes are read as
a string. -/
structure Accepted (registry : Registry) (chain : Chain) (signs : List Sign) : Prop where
  isSealed : Sealed signs
  laidOut : ∀ kinds, LaidOut registry chain (spell (unescape kinds signs))
  operands : chain.OfOperands
  literal : ∀ s, chain = ⟨.text s, []⟩ → signs = [.quoted s.toList]

/-- Accepted signs with layout around them, and the tree of their chain. -/
inductive Portable (registry : Registry) : Node → List Sign → Prop
  | placed {before after : List Char} {chain : Chain} {core : List Sign}
      (gap_before : IsGap before) (gap_after : IsGap after)
      (accepted : Accepted registry chain core) :
      Portable registry chain.tree (plains before ++ core ++ plains after)

theorem Accepted.unescape (accepted : Accepted registry chain signs) (kinds : List Bracket) :
    Accepted registry chain (Text.unescape kinds signs) where
  isSealed := accepted.isSealed.unescape kinds
  laidOut others := by
    rw [unescape_unescape]
    exact accepted.laidOut _
  operands := accepted.operands
  literal s same := by
    rw [accepted.literal s same]
    rfl

theorem Accepted.laidOut_spell (accepted : Accepted registry chain signs) :
    LaidOut registry chain (spell signs) :=
  unescape_none signs ▸ accepted.laidOut []

theorem Accepted.trimmed (accepted : Accepted registry chain signs) : Trimmed (spell signs) :=
  accepted.laidOut_spell.trimmed

namespace Portable

theorem of_accepted (accepted : Accepted registry chain signs) :
    Portable registry chain.tree signs := by
  simpa [plains] using Portable.placed isGap_nil isGap_nil accepted

theorem isSealed (portable : Portable registry tree signs) : Sealed signs := by
  cases portable with
  | placed gap_before gap_after accepted =>
      exact ((sealed_blank gap_before.isBlank).append accepted.isSealed).append (sealed_blank gap_after.isBlank)

theorem unescape (portable : Portable registry tree signs) (kinds : List Bracket) :
    Portable registry tree (Text.unescape kinds signs) := by
  cases portable with
  | placed gap_before gap_after accepted =>
      rw [unescape_append, unescape_append, unescape_plains, unescape_plains]
      exact .placed gap_before gap_after (accepted.unescape kinds)

/-- A portable text is read as its tree. -/
theorem reads (portable : Portable registry tree signs) {depth : Nat}
    (fits : (spell signs).length < depth) : readNode registry depth (spell signs) = .ok tree := by
  cases portable with
  | placed gap_before gap_after accepted =>
      rw [spell_append, spell_append, spell_plains, spell_plains] at fits ⊢
      exact accepted.laidOut_spell.readNode gap_before gap_after fits

theorem shown (portable : Portable registry tree signs) : isBlankText (spell signs) = false := by
  cases portable with
  | @placed before after chain core gap_before gap_after accepted =>
      obtain ⟨c, mem, shown⟩ := accepted.trimmed.exists_mem
      exact isBlankText_eq_false (by simp [mem]) shown

/-- A portable text has one tree only. -/
theorem tree_eq {other : Node} (portable : Portable registry tree signs)
    (again : Portable registry other signs) : tree = other :=
  Except.ok.inj ((portable.reads (Nat.lt_succ_self _)).symm.trans (again.reads (Nat.lt_succ_self _)))

end Portable

/-! ## Operands without brackets -/

theorem Accepted.of_operand (isSealed : Sealed signs) (operand : tree.isOperand = true)
    (noText : ∀ s, tree ≠ .text s)
    (laidOut : ∀ kinds, LaidOut registry ⟨tree, []⟩ (spell (Text.unescape kinds signs))) :
    Accepted registry ⟨tree, []⟩ signs where
  isSealed
  laidOut
  operands := ⟨operand, List.forall_mem_nil _⟩
  literal s same := absurd (Chain.mk.inj same).1 (noText s)

/-- A text without marks stands for itself. -/
theorem Accepted.of_plain (noMarks : ∀ c ∈ text, c ∉ marks) (operand : tree.isOperand = true)
    (noText : ∀ s, tree ≠ .text s) (laidOut : LaidOut registry ⟨tree, []⟩ text) :
    Accepted registry ⟨tree, []⟩ (plains text) :=
  .of_operand (.plains noMarks) operand noText fun kinds => by
    rwa [unescape_plains, spell_plains]

theorem accepted_text {s : String} (quotable : Quotable s.toList) :
    Accepted registry ⟨.text s, []⟩ [.quoted s.toList] where
  isSealed := .quoted quotable
  laidOut kinds := by
    rw [unescape_eq_quoted_iff.mpr rfl, spell_quoted]
    exact (readable_text quotable).laidOut
  operands := ⟨rfl, List.forall_mem_nil _⟩
  literal s' same := by
    cases same
    rfl

theorem accepted_nil : Accepted registry ⟨.nil, []⟩ (plains "nil".toList) :=
  .of_plain (noMarks_of_isIdentifier (by decide)) rfl (by simp) readable_nil.laidOut

theorem accepted_number (literal : Number.Literal) :
    Accepted registry ⟨.number literal.numeral.toFloat, []⟩ (plains literal.text) := by
  refine .of_plain (fun c mem mark => ?_) rfl (by simp) (readable_number literal).laidOut
  rcases mem_literal_text mem with digit | sign
  · rw [marks_not_digits c mark] at digit
    cases digit
  · exact (signs_plain c sign).2.1 mark

theorem accepted_bool (bangs : Nat) (b : Bool) :
    Accepted registry ⟨.bool (b != negates bangs), []⟩
      (plains (List.replicate bangs '!' ++ if b then "true".toList else "false".toList)) := by
  have identifier : isIdentifier (if b then "true".toList else "false".toList) = true := by
    cases b <;> decide
  refine .of_plain (List.forall_mem_append.mpr ⟨noMarks_bangs bangs,
    noMarks_of_isIdentifier identifier⟩) rfl (by simp) ?_
  refine .of_operand (trimmed_bangs bangs (trimmed_of_isIdentifier identifier))
    (startsOperand_bangs bangs (startsOperand_of_isIdentifier identifier))
    fun depth enough after ends => ?_
  rw [List.append_assoc]
  exact readOperand_bool bangs b ends

/-! ## Portable texts in brackets -/

/-- Signs between brackets of a kind, which are portable once the scan for the
end of the brackets has taken its backslashes away. -/
structure Inner (registry : Registry) (bracket : Bracket) where
  raw : List Sign
  tree : Node
  balanced : Balanced bracket raw
  portable : Portable registry tree (unescape [bracket] raw)

namespace Inner

variable {bracket : Bracket} (inner : Inner registry bracket)

theorem nested : Nested inner.raw :=
  inner.portable.isSealed.toNested.of_unescape inner.balanced

/-- The content of the brackets is read as the tree. -/
theorem reads (kinds : List Bracket) {depth : Nat}
    (fits : (spell (Text.unescape kinds inner.raw)).length < depth) :
    ∃ content, Encloses bracket.left bracket.right (spell (Text.unescape kinds inner.raw)) content ∧
      isBlankText content = false ∧ readNode registry depth content = .ok inner.tree := by
  have portable := inner.portable.unescape kinds
  refine ⟨_, inner.nested.encloses bracket kinds, portable.shown, portable.reads ?_⟩
  rw [unescape_comm]
  exact (length_spell_unescape_le _ _).trans_lt fits

end Inner

/-! ## Groups -/

/-- A portable text in parentheses is accepted as a group. -/
theorem accepted_group (bangs : Nat) (inner : Inner registry .round) :
    Accepted registry ⟨.group (negates bangs) inner.tree, []⟩
      (plains (List.replicate bangs '!') ++ (.plain '(' :: inner.raw ++ [.plain ')'])) := by
  have enclosed : Sealed (.plain Bracket.round.left :: inner.raw ++ [.plain Bracket.round.right]) :=
    .enclosed inner.nested (by decide)
  refine .of_operand ((sealed_bangs bangs).append enclosed) rfl (by simp) fun kinds => ?_
  have split : spell (unescape kinds
      (plains (List.replicate bangs '!') ++ (.plain '(' :: inner.raw ++ [.plain ')']))) =
        List.replicate bangs '!' ++ ('(' :: spell (unescape kinds inner.raw) ++ [')']) := by
    simp [Sign.unescape, Sign.text]
  rw [split]
  refine .of_operand (trimmed_bangs bangs (.enclosed (by decide) (by decide) _))
    (startsOperand_bangs bangs ⟨'(', rfl, by decide⟩) fun depth enough after ends => ?_
  have shorter : (spell (unescape kinds inner.raw)).length < depth := by
    simp only [List.length_append, List.length_cons] at enough
    omega
  obtain ⟨content, cut, -, read⟩ := inner.reads kinds shorter
  exact readOperand_group bangs cut read ends

/-! ## Selectors -/

/-- The start of a selector with portable texts in square brackets behind it is
accepted. -/
theorem accepted_selector (start : SelectorHead origin head)
    (subscripts : List (Inner registry .square)) :
    Accepted registry
      ⟨.selector (origin.withSlot fun _ => 0) (subscripts.map Inner.tree), []⟩
      (plains head ++ bracketedSigns (subscripts.map Inner.raw)) := by
  have nested : ∀ raw ∈ subscripts.map Inner.raw, Nested raw := by
    intro raw mem
    obtain ⟨inner, -, rfl⟩ := List.mem_map.mp mem
    exact inner.nested
  refine .of_operand (start.isSealed.append (sealed_bracketedSigns nested)) rfl (by simp)
    fun kinds => ?_
  rw [unescape_append, spell_append, unescape_plains, spell_plains, spell_unescape_bracketedSigns]
  have trimmed := trimmed_bracketed start.trimmed
    ((subscripts.map Inner.raw).map fun raw => spell (unescape kinds raw))
  have noEquals : (head ++ bracketed ((subscripts.map Inner.raw).map fun raw =>
      spell (unescape kinds raw))).head? ≠ some '=' := by
    obtain ⟨c, rest, rfl, mem⟩ := start.exists_head
    rintro ⟨⟩
    exact absurd mem (by decide)
  refine .of_operand trimmed (.of_trimmed trimmed noEquals) fun depth enough after ends => ?_
  refine readOperand_selector start ?_ ends
  rw [List.forall₂_map_left_iff, List.forall₂_map_left_iff, List.forall₂_map_right_iff,
    List.forall₂_same]
  intro inner mem
  have shorter := length_lt_of_mem_bracketed (List.mem_map_of_mem (List.mem_map_of_mem mem) :
    spell (unescape kinds inner.raw) ∈
      (subscripts.map Inner.raw).map fun raw => spell (unescape kinds raw))
  rw [List.length_append] at enough
  exact inner.reads kinds (by omega)

/-! ## Operators -/

/-- Accepted texts with an operator between them are accepted. -/
theorem Accepted.join {left right : Chain} {leftSigns rightSigns : List Sign}
    {before gap : List Char} (leftAccepted : Accepted registry left leftSigns)
    (rightAccepted : Accepted registry right rightSigns) (gap_before : IsGap before)
    (gap_after : IsGap gap) (operator : Operator) :
    Accepted registry (left.join operator right)
      (leftSigns ++ plains (before ++ operator.symbol ++ gap) ++ rightSigns) where
  isSealed := (leftAccepted.isSealed.append (isSealed_operator gap_before gap_after operator)).append
    rightAccepted.isSealed
  laidOut kinds := by
    rw [unescape_append, unescape_append, spell_append, spell_append, unescape_plains, spell_plains]
    exact (leftAccepted.laidOut kinds).join (rightAccepted.laidOut kinds) gap_before gap_after
      operator
  operands := by
    refine ⟨leftAccepted.operands.1, List.forall_mem_append.mpr ⟨leftAccepted.operands.2, ?_⟩⟩
    exact List.forall_mem_cons.mpr ⟨rightAccepted.operands.1, rightAccepted.operands.2⟩
  literal s same := by
    have noLinks := (Chain.mk.inj same).2
    simp at noLinks

end FieldRules.Expr
