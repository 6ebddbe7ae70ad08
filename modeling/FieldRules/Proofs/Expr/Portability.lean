import FieldRules.Proofs.Expr.Arguments
import Mathlib.Data.Set.List

/-!
# Texts that are read are portable

Each reader that takes an operand off a text takes accepted signs off it.  A scan
for the end of a bracket finds signs that are nested in it; without the
backslashes that the scan takes away, they were read before.  So every text that
is read as an expression is portable, by induction on the depth of the reader.
-/

namespace FieldRules.Expr

open FieldRules.Text

variable {text : List Char}

/-! ## What is read without a tree -/

theorem exists_skipLayout (text : List Char) :
    ∃ gap, IsGap gap ∧ text = gap ++ skipLayout text :=
  ⟨text.takeWhile isLayout, fun _ mem => List.mem_takeWhile_imp mem,
    List.takeWhile_append_dropWhile.symm⟩

theorem eq_of_readPath {path : Option (List Char)} {rest : List Char}
    (read : readPath text = some (path, rest)) :
    (path = none ∧ (text = rest ∨ text = '(' :: [] ++ ')' :: rest)) ∨
      ∃ word, path = some word ∧ isFieldPath word = true ∧ text = '(' :: word ++ ')' :: rest := by
  rw [readPath] at read
  split_ifs at read
  · split at read
    · rename_i content after scanned
      split_ifs at read with empty valid
      · cases read
        rw [List.isEmpty_iff] at empty
        subst empty
        exact .inl ⟨rfl, .inr (eq_of_scanPaired .round (List.forall_mem_nil _) scanned)⟩
      · cases read
        exact .inr ⟨content, rfl, valid,
          eq_of_scanPaired .round (noMarks_of_isFieldPath valid) scanned⟩
    · cases read
  · cases read
    exact .inl ⟨rfl, .inl rfl⟩

theorem eq_of_readElementMark {origin : Origin} {rest : List Char}
    (read : readElementMark text = some (origin, rest)) :
    origin.path? = none ∧ '$' :: text = origin.render ++ rest := by
  unfold readElementMark at read
  split at read
  · split_ifs at read
    cases read
    exact ⟨rfl, rfl⟩
  · split_ifs at read
    cases read
    exact ⟨rfl, rfl⟩
  · cases read

/-- What is read as the start of a selector is one; its slot is not given yet. -/
theorem exists_selectorHead {origin : Origin} {rest : List Char}
    (read : readOrigin text = some (origin, rest)) :
    ∃ head, SelectorHead origin head ∧ text = head ++ rest ∧
      origin.withSlot (fun _ => 0) = origin := by
  obtain ⟨⟨path, behindPath⟩, pathRead, read⟩ := Option.bind_eq_some_iff.mp read
  obtain ⟨behindMark, symbolRead, read⟩ := Option.bind_eq_some_iff.mp read
  have selects : behindPath = '$' :: behindMark := eq_append_of_readSymbol symbolRead
  have pathless (noPath : origin.path? = none) (rendered : behindPath = origin.render ++ rest)
      (split : text = behindPath ∨ text = '(' :: [] ++ ')' :: behindPath) :
      ∃ head, SelectorHead origin head ∧ text = head ++ rest ∧
        origin.withSlot (fun _ => 0) = origin := by
    have same : origin.withSlot (fun _ => 0) = origin := withSlot_of_path?_eq_none noPath
    rcases split with rfl | rfl
    · refine ⟨_, .render ?_, rendered, same⟩
      cases origin with
      | field path slot => cases noPath
      | _ => trivial
    · exact ⟨_, .emptyPath noPath, by rw [rendered]; rfl, same⟩
  rcases eq_of_readPath pathRead with ⟨rfl, split⟩ | ⟨path, rfl, valid, split⟩
  · cases marked : readElementMark behindMark with
    | some found =>
        simp only [marked] at read
        cases read
        obtain ⟨noPath, rendered⟩ := eq_of_readElementMark marked
        exact pathless noPath (selects.trans rendered) split
    | none =>
        simp only [marked] at read
        cases read
        exact pathless rfl selects split
  · cases marked : readElementMark behindMark with
    | some found => simp [marked] at read
    | none =>
        simp only [marked] at read
        cases read
        have wellFormed : (Origin.field (.ofList path) 0).WellFormed := by
          rwa [Origin.WellFormed, String.toList_ofList]
        refine ⟨_, .render wellFormed, ?_, rfl⟩
        rw [split, selects, render_field, String.toList_ofList]
        simp

variable [RegexLibrary]

variable {registry : Registry} {expression : ExpressionReader} {node : Node}
  {content after : List Char}

/-- The front of a text, up to what follows, is accepted as an operand. -/
def TakesAccepted (registry : Registry) (text : List Char) (node : Node) (after : List Char) : Prop :=
  ∃ signs, text = spell signs ++ after ∧ Accepted registry ⟨node, []⟩ signs

/-! ## Literals -/

theorem accepted_of_readText (read : readText text = some (node, after)) :
    TakesAccepted registry text node after := by
  obtain ⟨⟨content, _⟩, scanned, same⟩ := Option.map_eq_some_iff.mp read
  cases same
  obtain ⟨quotable, rfl⟩ := quoted_of_scanPaired scanned
  rw [← String.toList_ofList (l := content)] at quotable
  exact ⟨_, by rw [spell_quoted, String.toList_ofList], accepted_text quotable⟩

theorem accepted_of_readNumber (read : readNumber text = some (node, after)) :
    TakesAccepted registry text node after := by
  rw [readNumber] at read
  split at read
  · rename_i numeral rest literalRead
    split_ifs at read
    cases read
    obtain ⟨literal, rfl, rfl⟩ := Number.exists_literal literalRead
    exact ⟨plains literal.text, by rw [spell_plains], accepted_number literal⟩
  · cases read

theorem accepted_of_readBool (read : readBool text = some (node, after)) :
    TakesAccepted registry text node after := by
  have split := replicate_append_readBangs text
  have taken (b : Bool) (rest : List Char) (wordRead : readKeyword
      (if b then "true".toList else "false".toList) (readBangs text).2 = some rest) :
      TakesAccepted registry text (.bool (b != negates (readBangs text).1)) rest := by
    refine ⟨_, ?_, accepted_bool (readBangs text).1 b⟩
    rw [spell_plains, List.append_assoc, ← eq_append_of_readKeyword wordRead, split]
  simp only [readBool] at read
  split at read
  · rename_i rest wordRead
    cases read
    simpa using taken true after wordRead
  · split at read
    · rename_i rest wordRead
      cases read
      simpa using taken false after wordRead
    · cases read

theorem accepted_of_readNil (read : readNil text = some (node, after)) :
    TakesAccepted registry text node after := by
  obtain ⟨rest, wordRead, same⟩ := Option.map_eq_some_iff.mp read
  cases same
  exact ⟨_, by rw [spell_plains, eq_append_of_readKeyword wordRead], accepted_nil⟩

/-! ## Brackets -/

variable (portable : ReadsPortable registry expression)

include portable

/-- What is read between brackets is portable. -/
theorem exists_inner (bracket : Bracket)
    (scanned : scanPaired bracket.left bracket.right text = some (content, after))
    (read : expression content = .ok node) :
    ∃ inner : Inner registry bracket, inner.tree = node ∧
      text = bracket.left :: spell inner.raw ++ bracket.right :: after := by
  obtain ⟨raw, wellFormed, balanced, rfl, rfl⟩ := signs_of_scanPaired bracket scanned
  obtain ⟨signs, same, found⟩ := portable _ _ read
  obtain rfl := spell_injective (wellFormed_unescape wellFormed _) found.isSealed.wellFormed same
  exact ⟨⟨raw, node, balanced, found⟩, rfl, rfl⟩

theorem accepted_of_readGroup (read : readGroup expression text = .ok (some (node, after))) :
    TakesAccepted registry text node after := by
  have split := replicate_append_readBangs text
  simp only [readGroup] at read
  split at read
  · cases read
  · rename_i content rest scanned
    split_ifs at read
    · cases read
    · obtain ⟨tree, treeRead, same⟩ := bind_eq_ok_iff.mp read
      cases same
      obtain ⟨inner, rfl, shape⟩ := exists_inner portable .round scanned treeRead
      refine ⟨_, ?_, accepted_group (readBangs text).1 inner⟩
      rw [shape] at split
      simpa [Sign.text, Bracket.left, Bracket.right] using split.symm

/-! ## Calls -/

/-- A slice of an argument list that is read, or is a literal, is an argument. -/
theorem exists_argument {slice : List Char} (notEmpty : trim slice ≠ [])
    (read : (∃ tree, expression (trim slice) = .ok tree) ∨ ∃ s, quotedLiteral? (trim slice) = some s) :
    slice ∈ Set.range (Argument.source : Argument registry → List Char) := by
  have trimmed := trimmed_trim notEmpty
  obtain ⟨chain, core, accepted, spelled⟩ :
      ∃ chain core, Accepted registry chain core ∧ trim slice = spell core := by
    rcases read with ⟨tree, treeRead⟩ | ⟨s, literal⟩
    · obtain ⟨signs, same, found⟩ := portable _ _ treeRead
      cases found with
      | @placed before after chain core gap_before gap_after accepted =>
          refine ⟨chain, core, accepted, ?_⟩
          rw [← trim_eq_self trimmed, same, spell_append, spell_append, spell_plains, spell_plains]
          exact trim_placed accepted.trimmed gap_before gap_after
    · obtain ⟨quotable, same⟩ := (quotedLiteral?_eq_some_iff trimmed).mp literal
      rw [← String.toList_ofList (l := s)] at quotable same
      exact ⟨_, _, accepted_text quotable, by rw [spell_quoted, same]⟩
  obtain ⟨before, after, blank_before, blank_after, split⟩ := exists_trim slice
  refine ⟨⟨before, chain, core, after, blank_before, blank_after, accepted⟩, ?_⟩
  rw [Argument.source_eq, Argument.text, ← spelled]
  exact split.symm

/-- What stands between the parentheses of a call that is read is an argument
list. -/
theorem exists_arguments {signs : List Sign} (wellFormed : ∀ sign ∈ signs, sign.WellFormed)
    (notEmpty : (pieces (spell signs)).any List.isEmpty = false)
    (read : ∀ piece ∈ pieces (spell signs),
      (∃ tree, expression piece = .ok tree) ∨ ∃ s, quotedLiteral? piece = some s) :
    ∃ arguments, ArgumentList registry arguments signs ∧
      arguments.map Argument.text = pieces (spell signs) := by
  cases blank : isBlankText (spell signs) with
  | true =>
      have same : signs = plains (spell signs) :=
        spell_injective wellFormed (sealed_blank (List.all_eq_true.mp blank)).wellFormed
          (spell_plains _).symm
      refine ⟨[], same ▸ .none (List.all_eq_true.mp blank), ?_⟩
      rw [pieces, blank]
      rfl
  | false =>
      have cut : pieces (spell signs) = (slices 0 false (spell signs)).map trim := by
        rw [pieces, blank]
        rfl
      rw [cut] at notEmpty read ⊢
      obtain ⟨arguments, sources⟩ : slices 0 false (spell signs) ∈
          Set.range (List.map (Argument.source : Argument registry → List Char)) := by
        rw [Set.range_list_map]
        intro slice mem
        have inside : trim slice ∈ (slices 0 false (spell signs)).map trim := List.mem_map_of_mem mem
        refine exists_argument portable ?_ (read _ inside)
        simpa using List.any_eq_false.mp notEmpty _ inside
      have nonempty : arguments ≠ [] := by
        rintro rfl
        exact slices_ne_nil _ _ _ sources.symm
      have listed := ArgumentList.some nonempty
      have same : spell signs = spell ([.plain ','].intercalate (arguments.map Argument.signs)) := by
        rw [ArgumentList.spell_signs, sources, intercalate_slices]
      refine ⟨arguments, ?_, ?_⟩
      · rwa [spell_injective wellFormed listed.nested.wellFormed same]
      · rw [← sources, List.map_map]
        exact List.map_congr_left fun argument _ => argument.trim_source.symm

theorem accepted_of_readCall (read : readCall registry expression text = .ok (some (node, after))) :
    TakesAccepted registry text node after := by
  have split := replicate_append_readBangs text
  simp only [readCall] at read
  split at read
  · cases read
  · rename_i name rest nameRead
    obtain ⟨identifier, restSplit⟩ := eq_append_of_readIdentifier nameRead
    split_ifs at read
    · cases read
    · split at read
      · cases read
      · rename_i content after' scanned
        split_ifs at read with empty
        obtain ⟨⟨callee, nodes⟩, argumentsRead, same⟩ := bind_eq_ok_iff.mp read
        cases same
        obtain ⟨raw, wellFormed, balanced, shape, rfl⟩ :=
          signs_of_scanPaired .round scanned
        obtain ⟨arguments, listed, texts⟩ := exists_arguments portable
          (wellFormed_unescape wellFormed _) (Bool.eq_false_iff.mpr empty)
          (read_or_literal_of_readCallOf argumentsRead)
        refine ⟨_, ?_, accepted_call (readBangs text).1 portable identifier balanced listed
          (texts ▸ argumentsRead)⟩
        rw [restSplit, shape] at split
        simpa [Sign.text, Bracket.left, Bracket.right] using split.symm

/-! ## Selectors -/

/-- What is read as subscripts are portable texts in square brackets. -/
theorem exists_subscripts {steps : Nat} {nodes : List Node}
    (read : readSubscripts expression steps text = .ok (some (nodes, after))) :
    ∃ subscripts : List (Inner registry .square), subscripts.map Inner.tree = nodes ∧
      text = spell (bracketedSigns (subscripts.map Inner.raw)) ++ after := by
  induction steps generalizing text nodes with
  | zero =>
      cases read
      exact ⟨[], rfl, rfl⟩
  | succ steps ih =>
      rw [readSubscripts] at read
      split_ifs at read
      · cases read
        exact ⟨[], rfl, rfl⟩
      · split at read
        · cases read
        · rename_i content rest scanned
          split_ifs at read
          · cases read
          · obtain ⟨first, firstRead, read⟩ := bind_eq_ok_iff.mp read
            obtain ⟨taken, restRead, read⟩ := bind_eq_ok_iff.mp read
            split at read
            · cases read
            · cases read
              obtain ⟨inner, rfl, shape⟩ := exists_inner portable .square scanned firstRead
              obtain ⟨subscripts, rfl, rfl⟩ := ih restRead
              refine ⟨inner :: subscripts, rfl, ?_⟩
              rw [shape]
              simp [bracketedSigns, Sign.text, Bracket.left, Bracket.right]

theorem accepted_of_readSelector (read : readSelector expression text = .ok (some (node, after))) :
    TakesAccepted registry text node after := by
  rw [readSelector] at read
  split at read
  · cases read
  · rename_i origin rest originRead
    obtain ⟨taken, subscriptsRead, read⟩ := bind_eq_ok_iff.mp read
    split at read
    · cases read
    · split_ifs at read
      · cases read
        obtain ⟨head, start, rfl, slotless⟩ := exists_selectorHead originRead
        obtain ⟨subscripts, rfl, rfl⟩ := exists_subscripts portable subscriptsRead
        refine ⟨_, ?_, slotless ▸ accepted_selector start subscripts⟩
        rw [spell_append, spell_plains, List.append_assoc]
      · cases read

/-! ## Operands and chains -/

theorem accepted_of_readOperand (read : readOperand registry expression text = .ok (node, after)) :
    TakesAccepted registry text node after := by
  refine readFirst_sound (TakesAccepted registry text) ?_ read
  intro reader mem node after taken
  simp only [operandReaders, List.mem_cons, List.not_mem_nil, or_false] at mem
  rcases mem with rfl | rfl | rfl | rfl | rfl | rfl | rfl
  · exact accepted_of_readGroup portable taken
  · exact accepted_of_readCall portable taken
  · exact accepted_of_readText (Except.ok.inj taken)
  · exact accepted_of_readNumber (Except.ok.inj taken)
  · exact accepted_of_readBool (Except.ok.inj taken)
  · exact accepted_of_readNil (Except.ok.inj taken)
  · exact accepted_of_readSelector portable taken

/-- Links that are read up to the end of a text extend what has been accepted. -/
theorem accepted_of_readLinks {steps : Nat} {chain : Chain} {signs : List Sign}
    {links : List (Operator × Node)} (enough : text.length < steps)
    (accepted : Accepted registry chain signs)
    (read : readLinks (readOperand registry expression) steps text = .ok links) :
    ∃ more gap, IsGap gap ∧ text = spell more ++ gap ∧
      Accepted registry (chain.extend links) (signs ++ more) := by
  induction steps generalizing text chain signs links with
  | zero => exact absurd enough (Nat.not_lt_zero _)
  | succ steps ih =>
      obtain ⟨before, gap_before, split⟩ := exists_skipLayout text
      rw [readLinks] at read
      split at read
      · rename_i atEnd
        cases read
        rw [atEnd, List.append_nil] at split
        refine ⟨[], before, gap_before, split, ?_⟩
        rwa [Chain.extend_nil, List.append_nil]
      · split at read
        · cases read
        · rename_i operator rest operatorRead
          have symbolSplit := eq_append_of_readOperator operatorRead
          split at read
          · cases read
          · obtain ⟨⟨right, after⟩, rightRead, read⟩ := bind_eq_ok_iff.mp read
            obtain ⟨more, moreRead, same⟩ := bind_eq_ok_iff.mp read
            cases same
            obtain ⟨gap, gap_after, restSplit⟩ := exists_skipLayout rest
            obtain ⟨rightSigns, rightSplit, rightAccepted⟩ := accepted_of_readOperand portable rightRead
            have joined := accepted.join rightAccepted gap_before gap_after operator
            have shorter : after.length < steps := by
              obtain ⟨s, symbol, symbolShape, -, -⟩ := symbol_head operator
              rw [split, symbolSplit, restSplit, rightSplit, symbolShape] at enough
              simp only [List.length_append, List.length_cons] at enough
              omega
            obtain ⟨moreSigns, last, gap_last, rfl, extended⟩ := ih shorter joined moreRead
            refine ⟨plains (before ++ operator.symbol ++ gap) ++ rightSigns ++ moreSigns, last,
              gap_last, ?_, ?_⟩
            · rw [split, symbolSplit, restSplit, rightSplit]
              simp
            · rw [Chain.join_extend] at extended
              simpa [Chain.join, Chain.extend] using extended

/-- A text that is read as a chain is portable. -/
theorem portable_of_readChain {chain : Chain}
    (read : readChain (readOperand registry expression) text = .ok chain) :
    ∃ signs, text = spell signs ∧ Portable registry chain.tree signs := by
  obtain ⟨before, gap_before, split⟩ := exists_skipLayout text
  rw [readChain] at read
  split at read
  · cases read
  · obtain ⟨⟨first, rest⟩, firstRead, read⟩ := bind_eq_ok_iff.mp read
    obtain ⟨links, linksRead, same⟩ := bind_eq_ok_iff.mp read
    cases same
    obtain ⟨firstSigns, firstSplit, firstAccepted⟩ := accepted_of_readOperand portable firstRead
    obtain ⟨more, gap, gap_after, rfl, extended⟩ :=
      accepted_of_readLinks portable (Nat.lt_succ_self _) firstAccepted linksRead
    refine ⟨plains before ++ (firstSigns ++ more) ++ plains gap, ?_, ?_⟩
    · rw [split, firstSplit]
      simp
    · exact .placed gap_before gap_after extended

omit portable in
/-- Every reader of expressions reads portable texts only. -/
theorem readsPortable_readNode (registry : Registry) (depth : Nat) :
    ReadsPortable registry (readNode registry depth) := by
  induction depth with
  | zero =>
      intro text tree read
      cases read
  | succ depth ih =>
      intro text tree read
      obtain ⟨chain, chainRead, same⟩ := bind_eq_ok_iff.mp read
      cases same
      exact portable_of_readChain ih chainRead

omit portable in
/-- A text is read as a tree when it is spelled by signs that are portable with
that tree. -/
theorem ofText_eq_ok_iff {tree : Node} :
    Node.ofText registry text = .ok tree ↔ ∃ signs, text = spell signs ∧ Portable registry tree signs := by
  constructor
  · exact readsPortable_readNode registry _ text tree
  · rintro ⟨signs, rfl, portable⟩
    exact portable.reads (Nat.lt_succ_self _)

end FieldRules.Expr
