import FieldRules.Proofs.Expr.Portability

/-!
# Expressions put between brackets

A text that is read as an expression is read as the same tree when it is cut out
of brackets again: of parentheses, of a subscript, and of the commas of an
argument list.  Nothing in it ends the brackets early or cuts it, and what the
scans take away from it does not change its tree.
-/

namespace FieldRules

open FieldRules.Text FieldRules.Expr

variable [RegexLibrary]

namespace Expr

variable {registry : Registry} {tree : Node} {signs : List Sign} {text : List Char}
  {texts : List (List Char)} {trees : List Node}

/-- A portable text between brackets of a kind. -/
def Portable.inner (portable : Portable registry tree signs) (bracket : Bracket) :
    Inner registry bracket where
  raw := signs
  tree
  balanced := unescape_none signs ▸ portable.isSealed.balanced [] bracket
  portable := portable.unescape [bracket]

theorem ofText_of_accepted {chain : Chain} (accepted : Accepted registry chain signs)
    (same : spell signs = text) : Node.ofText registry text = .ok chain.tree :=
  ofText_eq_ok_iff.mpr ⟨signs, same.symm, .of_accepted accepted⟩

/-- What is cut out of brackets is read as it was before. -/
theorem exists_content (read : Node.ofText registry text = .ok tree) (bracket : Bracket)
    (after : List Char) :
    ∃ content, scanPaired bracket.left bracket.right
        (bracket.left :: text ++ bracket.right :: after) = some (content, after) ∧
      Node.ofText registry content = .ok tree := by
  obtain ⟨signs, rfl, portable⟩ := ofText_eq_ok_iff.mp read
  have cut := portable.isSealed.encloses bracket [] after
  rw [unescape_none, unescape_none] at cut
  exact ⟨_, cut, ofText_eq_ok_iff.mpr ⟨_, rfl, portable.unescape [bracket]⟩⟩

theorem ofText_group (read : Node.ofText registry text = .ok tree) :
    Node.ofText registry ('(' :: text ++ [')']) = .ok (.group false tree) := by
  obtain ⟨signs, rfl, portable⟩ := ofText_eq_ok_iff.mp read
  refine ofText_of_accepted (accepted_group 0 (portable.inner .round)) ?_
  simp [Portable.inner, plains, Sign.text]

theorem exists_inner_of_ofText
    (read : List.Forall₂ (fun text tree => Node.ofText registry text = .ok tree) texts trees)
    (bracket : Bracket) :
    ∃ inners : List (Inner registry bracket),
      inners.map (fun inner => spell inner.raw) = texts ∧ inners.map Inner.tree = trees := by
  induction read with
  | nil => exact ⟨[], rfl, rfl⟩
  | cons first _ ih =>
      obtain ⟨signs, rfl, portable⟩ := ofText_eq_ok_iff.mp first
      obtain ⟨inners, rfl, rfl⟩ := ih
      exact ⟨portable.inner bracket :: inners, rfl, rfl⟩

/-- The start of a selector is read with texts in square brackets behind it. -/
theorem ofText_selector {origin : Origin} {head : List Char} (start : SelectorHead origin head)
    (read : List.Forall₂ (fun text tree => Node.ofText registry text = .ok tree) texts trees) :
    Node.ofText registry (head ++ bracketed texts) =
      .ok (.selector (origin.withSlot fun _ => 0) trees) := by
  obtain ⟨inners, rfl, rfl⟩ := exists_inner_of_ofText read .square
  refine ofText_of_accepted (accepted_selector start inners) ?_
  have spelled := spell_unescape_bracketedSigns [] (inners.map Inner.raw)
  simp only [unescape_none, List.map_map] at spelled
  rw [spell_append, spell_plains, spelled]
  rfl

theorem ofText_subscript (read : Node.ofText registry text = .ok tree) :
    Node.ofText registry ('$' :: '[' :: text ++ [']']) = .ok (.selector .current [tree]) := by
  have start : SelectorHead .current Origin.current.render := .render trivial
  have selected := ofText_selector start (.cons read .nil)
  simpa [bracketed, Origin.render, Origin.withSlot] using selected

/-! ## Argument lists -/

theorem exists_argument_of_ofText (read : Node.ofText registry text = .ok tree) :
    ∃ argument : Argument registry, argument.source = text ∧ argument.tree = tree := by
  obtain ⟨signs, rfl, portable⟩ := ofText_eq_ok_iff.mp read
  cases portable with
  | @placed before after chain core gap_before gap_after accepted =>
      exact ⟨⟨before, chain, core, after, gap_before.isBlank, gap_after.isBlank, accepted⟩, rfl, rfl⟩

/-- A text is read alike without the blank characters around it. -/
theorem ofText_trim (read : Node.ofText registry text = .ok tree) :
    Node.ofText registry (trim text) = .ok tree := by
  obtain ⟨argument, rfl, rfl⟩ := exists_argument_of_ofText read
  rw [argument.trim_source]
  exact ofText_eq_ok_iff.mpr ⟨_, rfl, argument.portable⟩

theorem exists_arguments_of_ofText
    (read : List.Forall₂ (fun text tree => Node.ofText registry text = .ok tree) texts trees) :
    ∃ arguments : List (Argument registry),
      arguments.map Argument.source = texts ∧ arguments.map Argument.tree = trees := by
  induction read with
  | nil => exact ⟨[], rfl, rfl⟩
  | cons first _ ih =>
      obtain ⟨argument, rfl, rfl⟩ := exists_argument_of_ofText first
      obtain ⟨arguments, rfl, rfl⟩ := ih
      exact ⟨argument :: arguments, rfl, rfl⟩

variable {arguments : List (Argument registry)}

/-- What is cut out of the parentheses of an argument list is cut into texts that
are read as they were before. -/
theorem exists_argumentList (nonempty : arguments ≠ []) (after : List Char) :
    ∃ content, scanPaired '(' ')'
        ('(' :: [','].intercalate (arguments.map Argument.source) ++ ')' :: after) =
          some (content, after) ∧
      List.Forall₂ (fun piece tree => Node.ofText registry piece = .ok tree) (pieces content)
        (arguments.map Argument.tree) := by
  have listed := ArgumentList.some nonempty
  have cut := listed.nested.encloses .round [] after
  rw [unescape_none, unescape_none, ArgumentList.spell_signs] at cut
  refine ⟨_, cut, ?_⟩
  rw [(listed.unescape [.round]).pieces_eq, List.map_map, List.forall₂_map_left_iff,
    List.forall₂_map_right_iff, List.forall₂_same]
  intro argument _
  exact ofText_eq_ok_iff.mpr ⟨_, rfl, (argument.unescape [.round]).portable⟩

/-- A call is read when its arguments are. -/
theorem ofText_call {name : String} {callee : Callee} {nodes : List Node}
    (identifier : isIdentifier name.toList = true) (nonempty : arguments ≠ [])
    (read : ∀ depth, (∀ argument ∈ arguments, argument.text.length < depth) →
      readCallOf registry (readNode registry depth) name (arguments.map Argument.text) =
        .ok (callee, nodes)) :
    Node.ofText registry
        (name.toList ++ ('(' :: [','].intercalate (arguments.map Argument.source) ++ [')'])) =
      .ok (.call false callee nodes) := by
  have listed := ArgumentList.some nonempty
  generalize signs_eq : [Sign.plain ','].intercalate (arguments.map Argument.signs) = raw at listed
  have balanced : Balanced .round raw := unescape_none raw ▸ listed.nested.balanced [] .round
  have fits (argument : Argument registry) (mem : argument ∈ arguments) :
      argument.text.length < (spell raw).length + 1 :=
    Nat.lt_succ_of_le (listed.length_text_le mem)
  have unescaped : readCallOf registry (readNode registry ((spell raw).length + 1)) name
      ((arguments.map (Argument.unescape [.round])).map Argument.text) = .ok (callee, nodes) := by
    refine readCallOf_unescape (readsPortable_readNode registry _) [.round] (fun argument mem => ?_)
      (read _ fits)
    exact (length_spell_unescape_le _ _).trans_lt (fits argument mem)
  rw [← String.ofList_toList (s := name)] at unescaped
  have accepted := accepted_call 0 (readsPortable_readNode registry _) identifier balanced
    (listed.unescape [.round]) unescaped
  refine ofText_of_accepted accepted ?_
  rw [← ArgumentList.spell_signs, signs_eq]
  simp [Sign.text]

theorem ofText_call_of_takes (reachable : registry.Reachable) {callee : Callee}
    (noPattern : ∀ pattern, callee ≠ .regexp pattern)
    (takes : callee.Takes registry arguments.length) :
    Node.ofText registry (callee.name.toList ++
        ('(' :: [','].intercalate (arguments.map Argument.source) ++ [')'])) =
      .ok (.call false callee (arguments.map Argument.tree)) := by
  have nonempty : arguments ≠ [] := List.ne_nil_of_length_pos (pos_of_takes takes)
  have count : (arguments.map Argument.text).length = arguments.length := List.length_map _
  refine ofText_call (isIdentifier_name reachable takes) nonempty fun depth fits => ?_
  refine readCallOf_name reachable (count ▸ takes) (.none noPattern) ?_
  rw [List.forall₂_map_left_iff, List.forall₂_map_right_iff, List.forall₂_same]
  exact fun argument mem => argument.portable.reads (fits argument mem)

/-! ## Patterns -/

/-- An argument that is read as a string is its quoted form. -/
theorem Argument.text_eq_of_tree_eq_text (argument : Argument registry) {s : String}
    (string : argument.tree = .text s) :
    Quotable s.toList ∧ argument.text = singleQuoted s.toList := by
  have view := Chain.inorder_tree argument.accepted.operands
  have single : argument.chain = ⟨.text s, []⟩ := by
    rw [← view]
    exact congrArg Node.inorder string
  have core := argument.accepted.literal s single
  rw [Argument.text, core, spell_quoted]
  exact ⟨argument.accepted.isSealed.wellFormed (.quoted s.toList) (by simp [core]), rfl⟩

/-- A pattern without a subject applies to the current value. -/
theorem readCallOf_regexp {expression : ExpressionReader} {pattern : Pattern}
    (quotable : Quotable pattern.text.toList) :
    readCallOf registry expression "regexp" [singleQuoted pattern.text.toList] =
      .ok (.regexp pattern, [.current]) := by
  have arity : builtinArity? "regexp" = some ⟨1, some 2⟩ := rfl
  have fits : checkArity "regexp" ⟨1, some 2⟩ [singleQuoted pattern.text.toList] = .ok () := rfl
  simp only [readCallOf, arity, fits, bind_ok, List.headD_cons, readPattern_singleQuoted quotable,
    List.tail_cons]
  rfl

variable {literal : Argument registry} {pattern : Pattern}

theorem ofText_regexp (spelled : literal.tree = .text pattern.text) :
    Node.ofText registry ("regexp".toList ++ ('(' :: literal.source ++ [')'])) =
      .ok (.call false (.regexp pattern) [.current]) := by
  obtain ⟨quotable, text_eq⟩ := literal.text_eq_of_tree_eq_text spelled
  have called : Node.ofText registry
      ("regexp".toList ++ ('(' :: [','].intercalate ([literal].map Argument.source) ++ [')'])) = _ :=
    ofText_call (by decide) (List.cons_ne_nil _ _) fun depth _ => by
      rw [List.map_singleton, text_eq]
      exact readCallOf_regexp quotable
  simpa using called

theorem ofText_regexp_subject (reachable : registry.Reachable)
    (spelled : literal.tree = .text pattern.text) (subject : Argument registry) :
    Node.ofText registry
        ("regexp".toList ++ ('(' :: literal.source ++ ',' :: subject.source ++ [')'])) =
      .ok (.call false (.regexp pattern) [subject.tree]) := by
  obtain ⟨quotable, text_eq⟩ := literal.text_eq_of_tree_eq_text spelled
  have called : Node.ofText registry ("regexp".toList ++
      ('(' :: [','].intercalate ([literal, subject].map Argument.source) ++ [')'])) = _ :=
    ofText_call (by decide) (List.cons_ne_nil _ _) fun depth fits => by
      have takes : Callee.Takes registry (.regexp pattern) [subject.text].length := rfl
      have read := subject.portable.reads (fits subject (by simp))
      have named := readCallOf_name reachable takes (.pattern quotable isGap_nil isGap_nil)
        (.cons read .nil)
      have trimmed : Trimmed (singleQuoted pattern.text.toList) := .enclosed (by decide) (by decide) _
      simpa [Callee.name, text_eq, trim_eq_self trimmed] using named
  simpa [List.intercalate_cons_cons] using called

end Expr

/-- Texts that are read as expressions are read as the same trees inside brackets.
A scan for the end of brackets of any kind around such a text ends behind it, and
what the scan cuts out is read as the tree of the text; in parentheses it is a
group, and in square brackets a subscript.  An argument list of such texts is cut
into texts that are read as their trees, and a call that takes as many arguments
is the call with these trees in order.  The pattern of `regexp` is a text that is
read as a string. -/
theorem texts_read_alike_in_brackets {registry : Registry} (reachable : registry.Reachable) :
    (∀ text tree, Node.ofText registry text = .ok tree →
      (∀ (bracket : Bracket) (after : List Char), ∃ content,
        scanPaired bracket.left bracket.right (bracket.left :: text ++ bracket.right :: after) =
          some (content, after) ∧
        Node.ofText registry content = .ok tree) ∧
      Node.ofText registry ('(' :: text ++ [')']) = .ok (.group false tree) ∧
      Node.ofText registry ('$' :: '[' :: text ++ [']']) = .ok (.selector .current [tree])) ∧
    (∀ texts trees, texts ≠ [] →
      List.Forall₂ (fun text tree => Node.ofText registry text = .ok tree) texts trees →
      (∀ after, ∃ content,
        scanPaired '(' ')' ('(' :: [','].intercalate texts ++ ')' :: after) =
          some (content, after) ∧
        List.Forall₂ (fun piece tree => Node.ofText registry piece = .ok tree) (pieces content)
          trees) ∧
      ∀ callee : Callee, (∀ pattern, callee ≠ .regexp pattern) →
        callee.Takes registry texts.length →
        Node.ofText registry (callee.name.toList ++ ('(' :: [','].intercalate texts ++ [')'])) =
          .ok (.call false callee trees)) ∧
    ∀ (text : List Char) (pattern : Pattern),
      Node.ofText registry text = .ok (.text pattern.text) →
      Node.ofText registry ("regexp".toList ++ ('(' :: text ++ [')'])) =
        .ok (.call false (.regexp pattern) [.current]) ∧
      ∀ subject tree, Node.ofText registry subject = .ok tree →
        Node.ofText registry ("regexp".toList ++ ('(' :: text ++ ',' :: subject ++ [')'])) =
          .ok (.call false (.regexp pattern) [tree]) := by
  refine ⟨fun text tree read => ?_, fun texts trees nonempty read => ?_,
    fun text pattern read => ?_⟩
  · exact ⟨exists_content read, ofText_group read, ofText_subscript read⟩
  · obtain ⟨arguments, rfl, rfl⟩ := exists_arguments_of_ofText read
    refine ⟨exists_argumentList (by simpa using nonempty), fun callee noPattern takes => ?_⟩
    rw [List.length_map] at takes
    exact ofText_call_of_takes reachable noPattern takes
  · obtain ⟨literal, rfl, spelled⟩ := exists_argument_of_ofText read
    refine ⟨ofText_regexp spelled, fun subject tree subjectRead => ?_⟩
    obtain ⟨argument, rfl, rfl⟩ := exists_argument_of_ofText subjectRead
    exact ofText_regexp_subject reachable spelled argument

end FieldRules

namespace FieldRules

open FieldRules.Text FieldRules.Expr

attribute [local instance] RegexLibrary.empty

/-- A group with escaped parentheses inside, around a quoted parenthesis, next to a
string with a comma. -/
theorem escaped_group_read_in_brackets :
    let text : List Char := ['(', '\\', '(', '\'', ')', '\'', '\\', ')', ')']
    let tree : Node := .group false (.group false (.text ")"))
    let string : List Char := ['\'', 'a', ',', '(', 'b', '\'']
    Node.ofText .empty text = .ok tree ∧
      Node.ofText .empty string = .ok (.text "a,(b") ∧
      Node.ofText .empty ('(' :: text ++ [')']) = .ok (.group false tree) ∧
      Node.ofText .empty ("in".toList ++ ('(' :: [','].intercalate [text, string] ++ [')'])) =
        .ok (.call false .oneOf [tree, .text "a,(b"]) := by
  intro text tree string
  have textRead : Node.ofText .empty text = .ok tree := rfl
  have stringRead : Node.ofText .empty string = .ok (.text "a,(b") := rfl
  obtain ⟨single, several, -⟩ := texts_read_alike_in_brackets .empty
  have listed := (several [text, string] [tree, .text "a,(b"] (List.cons_ne_nil _ _)
    (.cons textRead (.cons stringRead .nil))).2
  exact ⟨textRead, stringRead, (single text tree textRead).2.1,
    listed .oneOf (by simp) (Nat.le_succ 1)⟩

end FieldRules
