import FieldRules.Proofs.Eval.Dependencies
import FieldRules.Proofs.Expr.ShownGroups

/-!
# Which trees are shown alike

The prefix form of a tree determines the tree, up to two things.  A group is shown as a call
of a predicate that is registered under the name `group`, and patterns are shown raw, so a
slash and a blank in a pattern can pass for its end.
-/

namespace FieldRules

open FieldRules.Text

variable [RegexLibrary]

variable {registry : Registry}

/-! ## Patterns -/

/-- Neither of two patterns starts with the other one, a slash and a blank, which is how a
pattern ends in a prefix form. -/
def Pattern.Apart (pattern other : Pattern) : Prop :=
  ¬pattern.text.toList ++ ['/', ' '] <+: other.text.toList ∧
    ¬other.text.toList ++ ['/', ' '] <+: pattern.text.toList

omit [RegexLibrary] in
theorem prefix_of_append_eq {text text' rest rest' : List Char}
    (same : text ++ '/' :: ' ' :: rest = text' ++ '/' :: ' ' :: rest')
    (apart : ¬text ++ ['/', ' '] <+: text') (short : text.length ≤ text'.length) :
    text = text' := by
  rcases List.append_eq_append_iff.mp same with ⟨behind, rfl, split⟩ | ⟨behind, rfl, split⟩
  · cases behind with
    | nil => exact (List.append_nil _).symm
    | cons slash behind =>
        rcases List.cons.inj split with ⟨rfl, tail⟩
        cases behind with
        | nil => exact absurd (List.cons.inj tail).1 (by decide)
        | cons blank behind =>
            rcases List.cons.inj tail with ⟨rfl, -⟩
            exact absurd ⟨behind, by simp⟩ apart
  · have none : behind = [] := by
      apply List.eq_nil_of_length_eq_zero
      rw [List.length_append] at short
      omega
    rw [none, List.append_nil]

/-- Patterns that are apart end at the same place. -/
theorem Pattern.Apart.eq_of_append_eq {pattern other : Pattern} (apart : pattern.Apart other)
    {rest rest' : List Char}
    (same : pattern.text.toList ++ '/' :: ' ' :: rest =
      other.text.toList ++ '/' :: ' ' :: rest') : pattern = other := by
  apply Pattern.eq_of_text_eq
  apply String.toList_injective
  rcases Nat.le_total pattern.text.toList.length other.text.toList.length with short | short
  · exact prefix_of_append_eq same apart.1 short
  · exact (prefix_of_append_eq same.symm apart.2 short).symm

/-! ## Trees of one text -/

/-- Trees that can be read, with patterns that are apart. -/
structure Comparable (registry : Registry) (node other : Node) : Prop where
  legible : Legible registry node
  other_legible : Legible registry other
  apart : ∀ pattern ∈ node.patterns, ∀ pattern' ∈ other.patterns, pattern.Apart pattern'

theorem Comparable.parts {node other : Node} (comparable : Comparable registry node other) :
    ∀ part ∈ node.parts, ∀ part' ∈ other.parts, Comparable registry part part' := by
  intro part mem part' mem'
  refine ⟨comparable.legible.part mem, comparable.other_legible.part mem', ?_⟩
  intro pattern inPart pattern' inPart'
  exact comparable.apart pattern (Node.patterns_subset mem inPart) pattern'
    (Node.patterns_subset mem' inPart')

/-- The form of a tree ends where that of any comparable tree does, and it determines the
tree up to calls that are shown as groups. -/
def Told (registry : Registry) (node : Node) : Prop :=
  ∀ ⦃other : Node⦄ ⦃rest rest' : List Char⦄, Comparable registry node other →
    StandsBehind rest → StandsBehind rest' → node.render ++ rest = other.render ++ rest' →
      node.withGroups = other.withGroups ∧ rest = rest'

section Items

variable {nodes others : List Node} {rest rest' : List Char}
  (told : ∀ node ∈ nodes, Told registry node)
  (comparable : ∀ node ∈ nodes, ∀ other ∈ others, Comparable registry node other)

include told comparable

/-- The forms of several trees, one behind the other, determine the trees when the text
behind them does not start with their mark. -/
theorem told_marked {mark : Char} {closing : List Char} (ends : rest.head? ≠ some mark)
    (ends' : rest'.head? ≠ some mark)
    (stands : ∀ nodes, StandsBehind (closing ++ (Node.marked mark closing nodes ++ rest)))
    (stands' : ∀ nodes, StandsBehind (closing ++ (Node.marked mark closing nodes ++ rest')))
    (same : Node.marked mark closing nodes ++ rest = Node.marked mark closing others ++ rest') :
    nodes.map Node.withGroups = others.map Node.withGroups ∧ rest = rest' := by
  induction nodes generalizing others with
  | nil =>
      cases others with
      | nil => exact ⟨rfl, same⟩
      | cons other others =>
          rw [show rest = _ from same] at ends
          exact absurd rfl ends
  | cons node nodes ih =>
      cases others with
      | nil =>
          rw [show rest' = _ from same.symm] at ends'
          exact absurd rfl ends'
      | cons other others =>
          simp only [Node.marked, List.flatMap_cons, List.cons_append, List.append_assoc,
            List.cons.injEq, true_and] at same
          rcases told node List.mem_cons_self
            (comparable node List.mem_cons_self other List.mem_cons_self) (stands nodes)
            (stands' others) same with ⟨first, behind⟩
          rcases ih (fun node mem => told node (List.mem_cons_of_mem _ mem))
            (fun node mem other mem' =>
              comparable node (List.mem_cons_of_mem _ mem) other (List.mem_cons_of_mem _ mem'))
            (List.append_cancel_left behind) with ⟨items, rests⟩
          exact ⟨by rw [List.map_cons, List.map_cons, first, items], rests⟩

theorem told_arguments
    (same : Node.renderArguments nodes ++ ')' :: rest =
      Node.renderArguments others ++ ')' :: rest') :
    nodes.map Node.withGroups = others.map Node.withGroups ∧ rest = rest' := by
  have stands (rest : List Char) (nodes : List Node) :
      StandsBehind ([] ++ (Node.marked ' ' [] nodes ++ ')' :: rest)) := by
    cases nodes <;> exact standsBehind_cons (by decide) _
  have unmarked (rest : List Char) : (')' :: rest).head? ≠ some ' ' := by simp
  rw [Node.renderArguments_eq, Node.renderArguments_eq] at same
  rcases told_marked told comparable (unmarked rest) (unmarked rest') (stands rest) (stands rest')
    same with ⟨items, ends⟩
  exact ⟨items, (List.cons.inj ends).2⟩

theorem told_subscripts (stands : StandsBehind rest) (stands' : StandsBehind rest')
    (same : Node.renderSubscripts nodes ++ rest = Node.renderSubscripts others ++ rest') :
    nodes.map Node.withGroups = others.map Node.withGroups ∧ rest = rest' := by
  have unmarked {rest : List Char} (stands : StandsBehind rest) : rest.head? ≠ some '[' := by
    intro bracket
    exact absurd (stands '[' bracket) (by decide)
  rw [Node.renderSubscripts_eq, Node.renderSubscripts_eq] at same
  exact told_marked told comparable (unmarked stands) (unmarked stands')
    (fun _ => standsBehind_cons (by decide) _) (fun _ => standsBehind_cons (by decide) _) same

end Items

/-! ### Words -/

/-- The form of a word is a token. -/
theorem isTokenChar_of_formKind {node : Node} (kind : node.formKind = .word) :
    ∀ c ∈ node.render, isTokenChar c = true := by
  cases node with
  | nil => exact isTokenChar_of_isIdentifier rfl
  | bool b => cases b <;> exact isTokenChar_of_isIdentifier rfl
  | number x => exact isTokenChar_render x
  | _ => cases kind

/-- The form of a word determines the word. -/
theorem eq_of_word_render_eq {node other : Node} (kind : node.formKind = .word)
    (kind' : other.formKind = .word) (same : node.render = other.render) : node = other := by
  have noNil (x : Float) : Node.nil.render ≠ Number.render x := by
    rw [Node.render]
    exact render_ne_number (c := 'l') (by decide) rfl (by decide)
  have noBool (b : Bool) (x : Float) : (Node.bool b).render ≠ Number.render x := by
    rw [Node.render]
    cases b with
    | true => exact render_ne_number (c := 't') (by decide) rfl (by decide)
    | false => exact render_ne_number (c := 'l') (by decide) rfl (by decide)
  cases node with
  | nil =>
      cases other with
      | nil => rfl
      | bool b => cases b <;> simp [Node.render] at same
      | number x => exact absurd same (noNil x)
      | _ => cases kind'
  | bool b =>
      cases other with
      | nil => cases b <;> simp [Node.render] at same
      | bool b' => cases b <;> cases b' <;> simp_all [Node.render]
      | number x => exact absurd same (noBool b x)
      | _ => cases kind'
  | number x =>
      cases other with
      | nil => exact absurd same.symm (noNil x)
      | bool b => exact absurd same.symm (noBool b x)
      | number y => exact congrArg Node.number (Number.render_injective same)
      | _ => cases kind'
  | _ => cases kind

/-! ### Lists -/

/-- Predicates are told from the functions of the language by their names. -/
theorem Callee.Named.exists_predicate {callee : Callee} (named : callee.Named)
    (other : callee.name ∉ builtinNames) : ∃ name holds, callee = .predicate name holds := by
  cases callee with
  | predicate name holds => exact ⟨name, holds, rfl⟩
  | _ => exact absurd (by simp [Callee.name, builtinNames]) other

/-- A callee is determined by its name and its pattern. -/
theorem Callee.eq_of_name_eq {callee callee' : Callee} {count count' : Nat}
    (takes : callee.Takes registry count) (takes' : callee'.Takes registry count')
    (named : callee.Named) (named' : callee'.Named) (names : callee.name = callee'.name)
    (patterns : callee.pattern? = callee'.pattern?) : callee = callee' := by
  by_cases builtin : callee.name ∈ builtinNames
  · have builtin' : callee'.name ∈ builtinNames := names ▸ builtin
    cases callee <;> cases callee' <;>
      first
      | rfl
      | exact congrArg Callee.regexp (Option.some.inj patterns)
      | exact absurd builtin named.2
      | exact absurd builtin' named'.2
      | exact absurd names (by simp [Callee.name])
  · rcases named.exists_predicate builtin with ⟨name, holds, rfl⟩
    rcases named'.exists_predicate (names ▸ builtin) with ⟨name', holds', rfl⟩
    obtain rfl : name = name' := names
    rw [Option.some.inj (takes.1.symm.trans takes'.1)]

theorem group_eq_callOrGroup {negate : Bool} {inner : Node} {callee : Callee}
    {arguments : List Node} (words : "group".toList = callee.name.toList)
    (items : [inner] = arguments) :
    Node.group negate inner = Node.callOrGroup negate callee arguments := by
  rw [← items]
  exact (if_pos (String.toList_inj.mp words).symm).symm

/-- Trees that are shown as one list are one tree, up to calls that are shown as groups. -/
theorem withGroups_eq_of_list? {node other : Node} {list list' : PrefixList}
    (legible : Legible registry node) (legible' : Legible registry other)
    (shown : node.list? = some list) (shown' : other.list? = some list')
    (negates : list.negate = list'.negate) (words : list.word = list'.word)
    (patterns : list.pattern? = list'.pattern?)
    (items : list.items.map Node.withGroups = list'.items.map Node.withGroups) :
    node.withGroups = other.withGroups := by
  cases legible with
  | @group negate inner inside =>
      cases shown
      cases legible' with
      | @group negate' inner' inside' =>
          cases shown'
          have inners : inner.withGroups = inner'.withGroups := (List.cons.inj items).1
          rw [Node.withGroups, Node.withGroups, inners, show negate = negate' from negates]
      | @binary operator' left' right' left_legible right_legible =>
          cases shown'
          exact absurd words (name_ne_symbol rfl operator')
      | @call negate' callee' arguments' takes' named' inside' =>
          cases shown'
          rw [Node.withGroups, Node.withGroups_call, show negate = negate' from negates]
          exact group_eq_callOrGroup words items
      | _ => cases shown'
  | @binary operator left right left_legible right_legible =>
      cases shown
      cases legible' with
      | @group negate' inner' inside' =>
          cases shown'
          exact absurd words.symm (name_ne_symbol rfl operator)
      | @binary operator' left' right' left_legible' right_legible' =>
          cases shown'
          have lefts : left.withGroups = left'.withGroups := (List.cons.inj items).1
          have rights : right.withGroups = right'.withGroups :=
            (List.cons.inj (List.cons.inj items).2).1
          rw [Node.withGroups, Node.withGroups, symbol_injective words, lefts, rights]
      | @call negate' callee' arguments' takes' named' inside' =>
          cases shown'
          exact absurd words.symm (name_ne_symbol named'.isIdentifier operator)
      | _ => cases shown'
  | @call negate callee arguments takes named inside =>
      cases shown
      cases legible' with
      | @group negate' inner' inside' =>
          cases shown'
          rw [Node.withGroups, Node.withGroups_call, show negate = negate' from negates]
          exact (group_eq_callOrGroup words.symm items.symm).symm
      | @binary operator' left' right' left_legible' right_legible' =>
          cases shown'
          exact absurd words (name_ne_symbol named.isIdentifier operator')
      | @call negate' callee' arguments' takes' named' inside' =>
          cases shown'
          have callees : callee = callee' :=
            Callee.eq_of_name_eq takes takes' named named' (String.toList_inj.mp words) patterns
          have arguments_eq : arguments.map Node.withGroups = arguments'.map Node.withGroups :=
            items
          rw [Node.withGroups_call, Node.withGroups_call, callees, arguments_eq,
            show negate = negate' from negates]
      | _ => cases shown'
  | _ => cases shown

theorem Node.exists_list? {node : Node} (kind : node.formKind = .list) :
    ∃ list, node.list? = some list := by
  cases node <;> first | exact ⟨_, rfl⟩ | cases kind

/-- The words of lists with patterns that are apart determine where the patterns end. -/
theorem eq_of_pattern_append_eq {list list' : PrefixList} (wellFormed : list.WellFormed)
    (wellFormed' : list'.WellFormed) (words : list.word = list'.word)
    (apart : ∀ pattern ∈ list.pattern?, ∀ pattern' ∈ list'.pattern?, pattern.Apart pattern')
    {rest rest' : List Char}
    (same : patternText list.pattern? ++ (Node.renderArguments list.items ++ rest) =
      patternText list'.pattern? ++ (Node.renderArguments list'.items ++ rest')) :
    list.pattern? = list'.pattern? ∧
      Node.renderArguments list.items ++ rest = Node.renderArguments list'.items ++ rest' := by
  have both : list.pattern?.isSome = true ↔ list'.pattern?.isSome = true := by
    rw [wellFormed.pattern, wellFormed'.pattern, words]
  have blank {items : List Node} (notEmpty : items ≠ []) (rest : List Char) :
      ∃ after, Node.renderArguments items ++ rest = ' ' :: after := by
    rcases List.exists_cons_of_ne_nil notEmpty with ⟨item, items, rfl⟩
    exact ⟨_, rfl⟩
  rcases blank wellFormed.items_ne_nil rest with ⟨after, items_eq⟩
  rcases blank wellFormed'.items_ne_nil rest' with ⟨after', items_eq'⟩
  cases first : list.pattern? with
  | none =>
      cases second : list'.pattern? with
      | none =>
          rw [first, second] at same
          exact ⟨rfl, same⟩
      | some pattern' => simp [first, second] at both
  | some pattern =>
      cases second : list'.pattern? with
      | none => simp [first, second] at both
      | some pattern' =>
          -- both patterns end at a slash in front of a blank, and only there
          rw [first, second, items_eq, items_eq'] at same
          simp only [patternText, Option.elim_some, List.cons_append, List.append_assoc,
            List.nil_append, List.cons.injEq, true_and] at same
          obtain rfl := (apart pattern first pattern' second).eq_of_append_eq same
          rw [items_eq, items_eq']
          exact ⟨rfl, (List.cons.inj (List.append_cancel_left same)).2⟩

/-! ### All trees -/

section Kinds

variable {node other : Node} {rest rest' : List Char}
  (comparable : Comparable registry node other) (stands : StandsBehind rest)
  (stands' : StandsBehind rest')
  (same : node.render ++ rest = other.render ++ rest')

include comparable stands stands' same

omit comparable in
theorem told_word (kind : node.formKind = .word) (kind' : other.formKind = .word) :
    node.withGroups = other.withGroups ∧ rest = rest' := by
  rcases run_append_inj (isTokenChar_of_formKind kind) (isTokenChar_of_formKind kind')
    stands.stops stands'.stops same with ⟨words, rests⟩
  exact ⟨congrArg _ (eq_of_word_render_eq kind kind' words), rests⟩

omit stands stands' in
theorem told_quoted (kind : node.formKind = .quoted) (kind' : other.formKind = .quoted) :
    node.withGroups = other.withGroups ∧ rest = rest' := by
  rcases comparable with ⟨legible, legible', -⟩
  cases legible with
  | @text s quotable =>
      cases legible' with
      | @text s' quotable' =>
          have scanned := congrArg (scanPaired '\'' '\'') same
          rw [Node.render, Node.render, scanPaired_singleQuoted quotable,
            scanPaired_singleQuoted quotable'] at scanned
          rcases Prod.mk.inj (Option.some.inj scanned) with ⟨contents, rests⟩
          rw [String.toList_inj.mp contents]
          exact ⟨rfl, rests⟩
      | _ => cases kind'
  | _ => cases kind

theorem told_selector (kind : node.formKind = .selector) (kind' : other.formKind = .selector)
    (toldParts : ∀ part ∈ node.parts, Told registry part) :
    node.withGroups = other.withGroups ∧ rest = rest' := by
  have parts := comparable.parts
  rcases comparable with ⟨legible, legible', -⟩
  cases legible with
  | @selector origin subscripts wellFormed slotless inside =>
      cases legible' with
      | @selector origin' subscripts' wellFormed' slotless' inside' =>
          have stops (nodes : List Node) {rest : List Char} (stands : StandsBehind rest) :
              ∀ c ∈ (Node.renderSubscripts nodes ++ rest).head?, isTokenChar c = false := by
            cases nodes with
            | nil => exact stands.stops
            | cons node nodes =>
                rintro c ⟨⟩
                rfl
          rw [Node.parts] at toldParts
          rw [Node.parts, Node.parts] at parts
          simp only [Node.render, List.append_assoc] at same
          rcases eq_of_origin_append_eq wellFormed wellFormed' slotless slotless'
            (stops subscripts stands) (stops subscripts' stands') same with ⟨rfl, behind⟩
          rcases told_subscripts toldParts parts stands stands' behind with ⟨items, rests⟩
          rw [Node.withGroups_selector, Node.withGroups_selector, items]
          exact ⟨rfl, rests⟩
      | _ => cases kind'
  | _ => cases kind

omit stands stands' in
theorem told_list {list list' : PrefixList} (shown : node.list? = some list)
    (shown' : other.list? = some list') (toldParts : ∀ part ∈ node.parts, Told registry part) :
    node.withGroups = other.withGroups ∧ rest = rest' := by
  have wellFormed := comparable.legible.list_wellFormed shown
  have wellFormed' := comparable.other_legible.list_wellFormed shown'
  have parts := comparable.parts
  rw [(Node.parts_of_list? shown).1] at parts toldParts
  rw [(Node.parts_of_list? shown').1] at parts
  have stops {list : PrefixList} (wellFormed : list.WellFormed) (rest : List Char) :
      ∀ c ∈ (patternText list.pattern? ++ (Node.renderArguments list.items ++ rest)).head?,
        isTokenChar c = false := by
    rcases wellFormed.exists_blank rest with ⟨after, behind⟩
    rw [behind]
    rintro c ⟨⟩
    rfl
  have apart : ∀ pattern ∈ list.pattern?, ∀ pattern' ∈ list'.pattern?, pattern.Apart pattern' := by
    intro pattern own pattern' own'
    rw [← (Node.parts_of_list? shown).2] at own
    rw [← (Node.parts_of_list? shown').2] at own'
    exact comparable.apart pattern (Node.mem_patterns_of_pattern? own) pattern'
      (Node.mem_patterns_of_pattern? own')
  rw [Node.render_of_list? shown, Node.render_of_list? shown'] at same
  simp only [List.append_assoc, List.cons_append, List.nil_append] at same
  rcases negation_append_inj same with ⟨negates, opened⟩
  rcases run_append_inj wellFormed.token wellFormed'.token (stops wellFormed _)
    (stops wellFormed' _) opened with ⟨words, behind⟩
  rcases eq_of_pattern_append_eq wellFormed wellFormed' words apart behind with
    ⟨patterns, arguments⟩
  rcases told_arguments toldParts parts arguments with ⟨items, rests⟩
  exact ⟨withGroups_eq_of_list? comparable.legible comparable.other_legible shown shown' negates
    words patterns items, rests⟩

end Kinds

/-- The form of every legible tree determines where it ends and, up to calls that are shown as
groups, the tree. -/
theorem Node.told (node : Node) : Told registry node := by
  -- the texts behind the two trees are arbitrary, so that the parts of a tree are told from
  -- what stands behind them inside its form
  induction node using Node.partsInduction with
  | step node toldParts =>
  intro other rest rest' comparable stands stands' same
  have kinds : other.formKind = node.formKind := by
    rw [← comparable.legible.formKindOf_render rest, same,
      comparable.other_legible.formKindOf_render]
  cases kind : node.formKind with
  | word => exact told_word stands stands' same kind (kinds.trans kind)
  | quoted => exact told_quoted comparable same kind (kinds.trans kind)
  | selector =>
      exact told_selector comparable stands stands' same kind (kinds.trans kind) toldParts
  | list =>
      rcases Node.exists_list? kind with ⟨list, shown⟩
      rcases Node.exists_list? (kinds.trans kind) with ⟨list', shown'⟩
      exact told_list comparable same shown shown' toldParts

/-! ## Expressions -/

/-- No call is shown as a group when no predicate has the name `group`. -/
theorem Legible.withGroups_eq {node : Node} (legible : Legible registry node)
    (free : registry.find? "group" = none) : node.withGroups = node := by
  induction legible with
  | @selector origin subscripts wellFormed slotless inside ih =>
      rw [Node.withGroups_selector, List.map_congr_left ih, List.map_id']
  | group inside ih => rw [Node.withGroups, ih]
  | binary left_legible right_legible leftIH rightIH => rw [Node.withGroups, leftIH, rightIH]
  | @call negate callee arguments takes named inside ih =>
      have other : callee.name ≠ "group" := by
        intro called
        rcases named.exists_predicate (by rw [called]; decide) with ⟨name, holds, rfl⟩
        have bound := takes.1
        rw [show name = "group" from called, free] at bound
        cases bound
      rw [Node.withGroups_call, Node.callOrGroup_of_name_ne other, List.map_congr_left ih,
        List.map_id']
  | _ => rfl

namespace Expression

/-- Slots are numbered alike in groups and in the calls that are shown as groups. -/
theorem withGroups_root_ofTree (source : String) (tree : Node) :
    (ofTree source tree).root.withGroups = (ofTree source tree.withGroups).root := by
  rw [ofTree, ofTree, Node.withGroups_withSlots, Node.fieldPaths_withGroups]

theorem toList_toText_ofTree (source : String) (tree : Node) :
    (ofTree source tree).toText.toList = tree.render := by
  rw [toText, Node.toText, String.toList_ofList]
  exact Node.render_withSlots _ tree

theorem ofText_eq_ofTree {source : String} {tree : Node}
    (read : Node.ofText registry source.toList = .ok tree) :
    ofText registry source = .ok (ofTree source tree) := by
  rw [ofText, read]
  rfl

theorem patterns_root_ofTree (source : String) (tree : Node) :
    (ofTree source tree).root.patterns = tree.patterns :=
  Node.patterns_withSlots _ tree

end Expression

/-- Two accepted texts whose patterns are apart are shown alike exactly if their trees are
equal up to calls of a predicate `group`, so exactly if the trees are equal when no predicate
has this name. -/
theorem prefix_forms_determine_trees {source source' : String}
    {expression expression' : Expression}
    (read : Expression.ofText registry source = .ok expression)
    (read' : Expression.ofText registry source' = .ok expression')
    (apart : ∀ pattern ∈ expression.root.patterns, ∀ pattern' ∈ expression'.root.patterns,
      pattern.Apart pattern') :
    (expression.toText = expression'.toText ↔
        expression.root.withGroups = expression'.root.withGroups) ∧
      (registry.find? "group" = none →
        (expression.toText = expression'.toText ↔ expression.root = expression'.root)) := by
  rcases Expression.eq_ofTree_of_ofText read with ⟨tree, treeRead, rfl⟩
  rcases Expression.eq_ofTree_of_ofText read' with ⟨tree', treeRead', rfl⟩
  have legible := Expr.legible_of_ofText treeRead
  have legible' := Expr.legible_of_ofText treeRead'
  rw [Expression.patterns_root_ofTree, Expression.patterns_root_ofTree] at apart
  have forms : (Expression.ofTree source tree).toText = (Expression.ofTree source' tree').toText ↔
      (Expression.ofTree source tree).root.withGroups =
        (Expression.ofTree source' tree').root.withGroups := by
    constructor
    · intro same
      have shown : tree.render ++ [] = tree'.render ++ [] := by
        rw [← Expression.toList_toText_ofTree source, same, Expression.toList_toText_ofTree]
      have comparable : Comparable registry tree tree' := ⟨legible, legible', apart⟩
      have trees := (tree.told comparable standsBehind_nil standsBehind_nil shown).1
      rw [Expression.withGroups_root_ofTree, Expression.withGroups_root_ofTree, trees]
      rfl
    · intro same
      have shown := congrArg Node.render same
      rw [Node.render_withGroups, Node.render_withGroups] at shown
      exact congrArg String.ofList shown
  refine ⟨forms, fun free => ?_⟩
  rw [forms, Expression.withGroups_root_ofTree, Expression.withGroups_root_ofTree,
    legible.withGroups_eq free, legible'.withGroups_eq free]

/-- What is shown of an accepted text, and the patterns in it. -/
def Expression.shown? (registry : Registry) (source : String) : Option (String × List String) :=
  (ofText registry source).toOption.map fun expression =>
    (expression.toText, expression.root.patterns.map (·.text))

theorem Expression.exists_of_shown? {source text : String} {patterns : List String}
    (shown : shown? registry source = some (text, patterns)) :
    ∃ expression, ofText registry source = .ok expression ∧ expression.toText = text ∧
      expression.root.patterns.map (·.text) = patterns := by
  rcases Option.map_eq_some_iff.mp shown with ⟨expression, read, same⟩
  refine ⟨expression, ?_, congrArg Prod.fst same, congrArg Prod.snd same⟩
  cases result : ofText registry source with
  | ok accepted =>
      rw [result] at read
      cases read
      rfl
  | error refused =>
      rw [result] at read
      cases read

end FieldRules

namespace FieldRules

/-- A library of the patterns below.  They match where a certain part stands in a string,
and the class of characters where one of them does. -/
abbrev slashedPatterns : RegexLibrary :=
  let holding (part : String) (subject : String) : Bool :=
    decide (part.toList <:+: subject.toList)
  .ofTable [("a/b", holding "a/b"), ("a", holding "a"), ("]", holding "]"),
    ("a/ (in ')", holding "a/ in '"),
    ("[' (regexp /]", fun subject => subject.toList.any "' (regxp/".toList.contains)]

attribute [local instance] slashedPatterns

/-- A pattern with a slash in it, and the current value left out once. -/
theorem spelling_of_pattern_call_not_shown :
    ∃ expression expression' : Expression,
      Expression.ofText .empty "regexp('a/b',$)" = .ok expression ∧
        Expression.ofText .empty "!!regexp( 'a/b' )" = .ok expression' ∧
          expression.toText = "(regexp /a/b/ $)" ∧ expression.root = expression'.root := by
  have shown : Expression.shown? .empty "regexp('a/b',$)" =
      some ("(regexp /a/b/ $)", ["a/b"]) := by decide +kernel
  have shown' : Expression.shown? .empty "!!regexp( 'a/b' )" =
      some ("(regexp /a/b/ $)", ["a/b"]) := by decide +kernel
  rcases Expression.exists_of_shown? shown with ⟨expression, read, text, patterns⟩
  rcases Expression.exists_of_shown? shown' with ⟨expression', read', text', patterns'⟩
  have apart : ∀ pattern ∈ expression.root.patterns, ∀ pattern' ∈ expression'.root.patterns,
      pattern.Apart pattern' := by
    intro pattern mem pattern' mem'
    have spelled : pattern.text ∈ expression.root.patterns.map (·.text) :=
      List.mem_map_of_mem mem
    have spelled' : pattern'.text ∈ expression'.root.patterns.map (·.text) :=
      List.mem_map_of_mem mem'
    rw [patterns, List.mem_singleton] at spelled
    rw [patterns', List.mem_singleton] at spelled'
    rw [Pattern.Apart, spelled, spelled']
    decide +kernel
  have trees := (prefix_forms_determine_trees read read' apart).2 rfl
  exact ⟨expression, expression', read, read', text, trees.mp (text.trans text'.symm)⟩

/-- Two texts whose patterns hold the rest of each other's form, and a call of a predicate
`group` beside a group. -/
theorem different_trees_shown_alike :
    (∃ expression expression' : Expression,
      Expression.ofText .empty "regexp('a',in(')/ (len (regexp /[',regexp(']',$)))" =
          .ok expression ∧
        Expression.ofText .empty "regexp('a/ (in \\')',len(regexp('[\\' (regexp /]',$)))" =
            .ok expression' ∧
          expression.toText = expression'.toText ∧ expression.root ≠ expression'.root) ∧
      ∃ (registry : Registry) (expression expression' : Expression),
        Registry.empty.register "group" (fun _ => true) false = .ok registry ∧
          Expression.ofText registry "(nil)" = .ok expression ∧
            Expression.ofText registry "group(nil)" = .ok expression' ∧
              expression.toText = expression'.toText ∧ expression.root ≠ expression'.root := by
  constructor
  · have shown : Expression.shown? .empty
        "regexp('a',in(')/ (len (regexp /[',regexp(']',$)))" =
          some ("(regexp /a/ (in ')/ (len (regexp /[' (regexp /]/ $)))", ["a", "]"]) := by
      decide +kernel
    have shown' : Expression.shown? .empty
        "regexp('a/ (in \\')',len(regexp('[\\' (regexp /]',$)))" =
          some ("(regexp /a/ (in ')/ (len (regexp /[' (regexp /]/ $)))",
            ["a/ (in ')", "[' (regexp /]"]) := by
      decide +kernel
    rcases Expression.exists_of_shown? shown with ⟨expression, read, text, patterns⟩
    rcases Expression.exists_of_shown? shown' with ⟨expression', read', text', patterns'⟩
    refine ⟨expression, expression', read, read', text.trans text'.symm, fun same => ?_⟩
    rw [same, patterns'] at patterns
    exact absurd patterns (by decide)
  · let predicate : Predicate := fun _ => true
    let registry := Registry.empty.bind "group" predicate
    let callee : Callee := .predicate "group" predicate
    have group : Node.ofText registry "(nil)".toList = .ok (.group false .nil) := by
      simp only [String.reduceToList]
      rfl
    have call : Node.ofText registry "group(nil)".toList = .ok (.call false callee [.nil]) := by
      simp only [String.reduceToList]
      rfl
    have same : Node.callOrGroup false callee [.nil] = .group false .nil := by
      simp [Node.callOrGroup, callee, Callee.name]
    have shown := Node.render_callOrGroup false callee [.nil]
    rw [same] at shown
    refine ⟨registry, _, _, rfl, Expression.ofText_eq_ofTree group,
      Expression.ofText_eq_ofTree call, ?_, fun same => ?_⟩
    · apply String.toList_injective
      rw [Expression.toList_toText_ofTree, Expression.toList_toText_ofTree, shown]
    · cases same

end FieldRules
