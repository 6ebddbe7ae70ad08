import FieldRules.Expr.Printer
import FieldRules.Proofs.Expr.Legible
import FieldRules.Proofs.Expr.Subtrees
import FieldRules.Proofs.Number.Distinct

/-!
# How prefix forms begin and end

Prefix forms consist of tokens, which run up to a separator, of quoted strings and of
lists in parentheses.  The kind of a tree is seen at the start of its prefix form, and what
comes behind a tree in a larger form starts with a separator.
-/

namespace FieldRules

open FieldRules.Text

/-! ## Tokens -/

/-- The characters between which the tokens of a prefix form stand. -/
def separators : List Char :=
  [' ', ')', '[', ']']

/-- The characters that tokens of a prefix form consist of. -/
def isTokenChar (c : Char) : Bool :=
  c ∉ separators

/-- A text that can stand behind a tree in a prefix form. -/
def StandsBehind (rest : List Char) : Prop :=
  ∀ c ∈ rest.head?, c ∈ [' ', ')', ']']

theorem standsBehind_nil : StandsBehind [] := by
  simp [StandsBehind]

theorem standsBehind_cons {c : Char} (closing : c ∈ [' ', ')', ']']) (rest : List Char) :
    StandsBehind (c :: rest) := by
  rintro d ⟨⟩
  exact closing

theorem StandsBehind.stops {rest : List Char} (stands : StandsBehind rest) :
    ∀ c ∈ rest.head?, isTokenChar c = false := by
  intro c first
  have mem := stands c first
  fin_cases mem <;> rfl

theorem isWordChar_separator : ∀ c ∈ separators, isWordChar c = false := by
  intro c mem
  fin_cases mem <;> rfl

theorem isTokenChar_of_isWordChar {c : Char} (word : isWordChar c = true) :
    isTokenChar c = true := by
  rw [isTokenChar, decide_eq_true_eq]
  intro mem
  rw [isWordChar_separator c mem] at word
  cases word

theorem isTokenChar_of_isFieldPath {path : List Char} (valid : isFieldPath path = true) :
    ∀ c ∈ path, isTokenChar c = true := by
  intro c mem
  rcases isWordChar_of_isFieldPath valid mem with word | rfl
  · exact isTokenChar_of_isWordChar word
  · rfl

theorem isTokenChar_of_isIdentifier {name : List Char} (identifier : isIdentifier name = true) :
    ∀ c ∈ name, isTokenChar c = true :=
  fun _ mem => isTokenChar_of_isWordChar (isWordChar_of_isIdentifier identifier mem)

theorem isTokenChar_symbol (operator : Operator) : ∀ c ∈ operator.symbol, isTokenChar c = true := by
  intro c mem
  cases operator <;> fin_cases mem <;> rfl

theorem isTokenChar_render (x : Float) : ∀ c ∈ Number.render x, isTokenChar c = true := by
  intro c mem
  rcases Number.mem_render mem with digit | other
  · exact isTokenChar_of_isWordChar (by simp [isWordChar, Char.isAlphanum, digit])
  · fin_cases other <;> rfl

/-- The letters of `nil`, `true` and `false` that no number is written with. -/
theorem render_ne_number {x : Float} {word : List Char} {c : Char} (mem : c ∈ word)
    (letter : c.isDigit = false) (other : c ∉ ['-', '.', 'i', 'n', 'f', 'N', 'a']) :
    word ≠ Number.render x := by
  rintro rfl
  rcases Number.mem_render mem with digit | shared
  · rw [letter] at digit
    cases digit
  · exact other shared

theorem isIdentifier_symbol (operator : Operator) : isIdentifier operator.symbol = false := by
  cases operator <;> rfl

theorem symbol_injective : Function.Injective Operator.symbol := by
  intro operator operator' same
  cases operator <;> cases operator' <;> first | rfl | cases same

/-- An operator is no name. -/
theorem name_ne_symbol {name : List Char} (identifier : isIdentifier name = true)
    (operator : Operator) : name ≠ operator.symbol := by
  rintro rfl
  rw [isIdentifier_symbol] at identifier
  cases identifier

theorem negation_append_inj {negate negate' : Bool} {rest rest' : List Char}
    (same : negation negate ++ '(' :: rest = negation negate' ++ '(' :: rest') :
    negate = negate' ∧ rest = rest' := by
  cases negate <;> cases negate'
  · exact ⟨rfl, (List.cons.inj same).2⟩
  · cases (List.cons.inj same).1
  · cases (List.cons.inj same).1
  · exact ⟨rfl, (List.cons.inj (List.cons.inj same).2).2⟩

/-! ## Starts of selectors -/

/-- Without a path, the start of a selector is a token. -/
theorem isTokenChar_of_path?_eq_none {origin : Origin} (noPath : origin.path? = none) :
    ∀ c ∈ origin.render, isTokenChar c = true := by
  intro c mem
  cases origin with
  | field path slot => cases noPath
  | _ => fin_cases mem <;> rfl

/-- Only a path is opened with a parenthesis. -/
theorem origin_append_ne_field {origin : Origin} (noPath : origin.path? = none) (path : String)
    (slot : Nat) (rest rest' : List Char) :
    origin.render ++ rest ≠ (Origin.field path slot).render ++ rest' := by
  cases origin with
  | field path slot => cases noPath
  | _ =>
      intro same
      cases (List.cons.inj same).1

/-- The start of a selector determines its origin. -/
theorem eq_of_origin_append_eq {origin origin' : Origin} (wellFormed : origin.WellFormed)
    (wellFormed' : origin'.WellFormed) (slotless : origin.withSlot (fun _ => 0) = origin)
    (slotless' : origin'.withSlot (fun _ => 0) = origin') {rest rest' : List Char}
    (stops : ∀ c ∈ rest.head?, isTokenChar c = false)
    (stops' : ∀ c ∈ rest'.head?, isTokenChar c = false)
    (same : origin.render ++ rest = origin'.render ++ rest') : origin = origin' ∧ rest = rest' := by
  cases path : origin.path? with
  | none =>
      cases path' : origin'.path? with
      | none =>
          rcases run_append_inj (isTokenChar_of_path?_eq_none path)
            (isTokenChar_of_path?_eq_none path') stops stops' same with ⟨starts, rests⟩
          refine ⟨?_, rests⟩
          cases origin <;> cases origin' <;> first | rfl | cases starts | cases path
      | some name' =>
          cases origin' with
          | field name' slot' => exact absurd same (origin_append_ne_field path _ _ _ _)
          | _ => cases path'
  | some name =>
      cases origin with
      | field name slot =>
          cases origin' with
          | field name' slot' =>
              have closing {rest : List Char} :
                  ∀ c ∈ (')' :: '$' :: rest).head?, isTokenChar c = false := by
                rintro c ⟨⟩
                rfl
              simp only [Origin.render, List.cons_append, List.append_assoc, List.nil_append,
                List.cons.injEq, true_and] at same
              rcases run_append_inj (isTokenChar_of_isFieldPath wellFormed)
                (isTokenChar_of_isFieldPath wellFormed') closing closing same with ⟨names, rests⟩
              rw [← slotless, ← slotless', String.toList_inj.mp names]
              exact ⟨rfl, (List.cons.inj (List.cons.inj rests).2).2⟩
          | _ => exact absurd same.symm (origin_append_ne_field rfl _ _ _ _)
      | _ => cases path

/-! ## Starts of forms -/

/-- How the prefix form of a tree is written. -/
inductive FormKind where
  | word
  | quoted
  | selector
  | list
  deriving DecidableEq

/-- The kind of the form at the start of a text.  A parenthesis opens the path of a
selector when the token behind it is closed at once. -/
def formKindOf : List Char → FormKind
  | '\'' :: _ => .quoted
  | '$' :: _ => .selector
  | '!' :: _ => .list
  | '(' :: rest => if (rest.dropWhile isTokenChar).head? = some ')' then .selector else .list
  | _ => .word

theorem formKindOf_word {c : Char} (other : c ∉ ['\'', '$', '!', '(']) (rest : List Char) :
    formKindOf (c :: rest) = .word := by
  rw [formKindOf] <;> (rintro _ ⟨⟩; simp at other)

theorem formKindOf_number (x : Float) (rest : List Char) :
    formKindOf (Number.render x ++ rest) = .word := by
  cases written : Number.render x with
  | nil => exact absurd written (Number.render_ne_nil x)
  | cons c text =>
      apply formKindOf_word
      have mem : c ∈ Number.render x := written ▸ List.mem_cons_self
      intro mark
      rcases Number.mem_render mem with digit | other
      · fin_cases mark <;> cases digit
      · fin_cases mark <;> revert other <;> decide

/-- A token behind a parenthesis tells by what follows it which kind of form starts. -/
theorem formKindOf_parenthesis {token : List Char} (all : ∀ c ∈ token, isTokenChar c = true)
    {c : Char} (stop : isTokenChar c = false) (rest : List Char) :
    formKindOf ('(' :: (token ++ c :: rest)) = if c = ')' then .selector else .list := by
  have stops : ∀ d ∈ (c :: rest).head?, isTokenChar d = false := by
    rintro d ⟨⟩
    exact stop
  rw [formKindOf, dropWhile_run all stops]
  simp

variable [RegexLibrary]

variable {registry : Registry}

/-! ## Names -/

/-- Callees are called by identifiers. -/
theorem Callee.Named.isIdentifier {callee : Callee} (named : callee.Named) :
    isIdentifier callee.name.toList = true := by
  cases callee with
  | predicate name holds => exact named.1
  | _ => exact Expr.isIdentifier_builtin _ (by simp [Callee.name, builtinNames])

/-- The pattern of `regexp`. -/
def Callee.pattern? : Callee → Option Pattern
  | .regexp pattern => some pattern
  | _ => none

/-- A pattern between slashes, behind the name of `regexp`. -/
def patternText (pattern? : Option Pattern) : List Char :=
  pattern?.elim [] fun pattern => ' ' :: '/' :: pattern.text.toList ++ ['/']

theorem Callee.render_eq (callee : Callee) :
    callee.render = callee.name.toList ++ patternText callee.pattern? := by
  cases callee with
  | regexp pattern =>
      have name : "regexp /".toList = "regexp".toList ++ [' ', '/'] := by simp
      change "regexp /".toList ++ pattern.text.toList ++ ['/'] = _
      rw [name]
      simp [Callee.name, Callee.pattern?, patternText]
  | len => exact (List.append_nil _).symm
  | sprintf => exact (List.append_nil _).symm
  | oneOf => exact (List.append_nil _).symm
  | range => exact (List.append_nil _).symm
  | predicate name holds => exact (List.append_nil _).symm

/-- Only the name of `regexp` has a pattern behind it. -/
theorem Callee.Named.pattern_iff {callee : Callee} (named : callee.Named) :
    callee.pattern?.isSome = true ↔ callee.name.toList = "regexp".toList := by
  rw [String.toList_inj]
  cases callee with
  | predicate name holds =>
      constructor
      · intro pattern
        cases pattern
      · rintro rfl
        exact absurd (by simp [builtinNames]) named.2
  | _ => simp [Callee.pattern?, Callee.name]

/-! ## Parts -/

namespace Node

/-- The trees that a tree is made of directly. -/
def parts : Node → List Node
  | selector _ subscripts => subscripts
  | group _ inner => [inner]
  | binary _ left right => [left, right]
  | call _ _ arguments => arguments
  | _ => []

/-- Induction from the parts of a tree to the tree. -/
@[elab_as_elim]
theorem partsInduction {motive : Node → Prop}
    (step : ∀ node, (∀ part ∈ node.parts, motive part) → motive node) (node : Node) :
    motive node := by
  induction node using treeInduction with
  | selector origin subscripts ih => exact step _ ih
  | group negate inner ih => exact step _ (List.forall_mem_singleton.mpr ih)
  | binary operator left right leftIH rightIH =>
      exact step _ (List.forall_mem_cons.mpr ⟨leftIH, List.forall_mem_singleton.mpr rightIH⟩)
  | call negate callee arguments ih => exact step _ ih
  | _ => exact step _ (List.forall_mem_nil _)

/-- The pattern of a `regexp` call. -/
def pattern? : Node → Option Pattern
  | call _ callee _ => callee.pattern?
  | _ => none

/-- The patterns of all `regexp` calls in a tree. -/
def patterns (node : Node) : List Pattern :=
  node.subtrees.filterMap pattern?

theorem mem_patterns_of_pattern? {node : Node} {pattern : Pattern}
    (own : node.pattern? = some pattern) : pattern ∈ node.patterns := by
  have self : node ∈ node.subtrees := by cases node <;> simp [subtrees]
  exact List.mem_filterMap.mpr ⟨node, self, own⟩

theorem patterns_subset {node part : Node} (mem : part ∈ node.parts) :
    part.patterns ⊆ node.patterns := by
  apply List.filterMap_subset
  intro subtree inPart
  cases node with
  | selector origin subscripts =>
      exact List.mem_cons_of_mem _ (mem_listSubtrees_iff.mpr ⟨part, mem, inPart⟩)
  | group negate inner =>
      cases List.mem_singleton.mp mem
      exact List.mem_cons_of_mem _ inPart
  | binary operator left right =>
      apply List.mem_cons_of_mem
      rw [List.mem_append]
      rcases List.mem_cons.mp mem with rfl | mem
      · exact .inl inPart
      · cases List.mem_singleton.mp mem
        exact .inr inPart
  | call negate callee arguments =>
      exact List.mem_cons_of_mem _ (mem_listSubtrees_iff.mpr ⟨part, mem, inPart⟩)
  | _ => cases mem

end Node

/-- The parts of a legible tree are legible. -/
theorem Legible.part {node part : Node} (legible : Legible registry node)
    (mem : part ∈ node.parts) : Legible registry part := by
  cases legible with
  | selector wellFormed slotless inside => exact inside part mem
  | group inside =>
      cases List.mem_singleton.mp mem
      exact inside
  | binary left_legible right_legible =>
      rcases List.mem_cons.mp mem with rfl | mem
      · exact left_legible
      · cases List.mem_singleton.mp mem
        exact right_legible
  | call takes named inside => exact inside part mem
  | _ => cases mem

/-! ## Lists -/

/-- The content of a list in a prefix form: a word, the pattern of `regexp`, and items. -/
structure PrefixList where
  negate : Bool
  word : List Char
  pattern? : Option Pattern
  items : List Node

/-- The list as which a tree is shown. -/
def Node.list? : Node → Option PrefixList
  | group negate inner => some ⟨negate, "group".toList, none, [inner]⟩
  | binary operator left right => some ⟨false, operator.symbol, none, [left, right]⟩
  | call negate callee arguments =>
      some ⟨negate, callee.name.toList, callee.pattern?, arguments⟩
  | _ => none

theorem Node.render_of_list? {node : Node} {list : PrefixList} (shown : node.list? = some list) :
    node.render = negation list.negate ++ '(' :: (list.word ++
      (patternText list.pattern? ++ renderArguments list.items ++ [')'])) := by
  cases node with
  | group negate inner =>
      cases shown
      simp [render, patternText, renderArguments]
  | binary operator left right =>
      cases shown
      simp [render, patternText, renderArguments, negation]
  | call negate callee arguments =>
      cases shown
      simp [render, Callee.render_eq]
  | _ => cases shown

theorem Node.parts_of_list? {node : Node} {list : PrefixList} (shown : node.list? = some list) :
    node.parts = list.items ∧ node.pattern? = list.pattern? := by
  cases node with
  | group negate inner =>
      cases shown
      exact ⟨rfl, rfl⟩
  | binary operator left right =>
      cases shown
      exact ⟨rfl, rfl⟩
  | call negate callee arguments =>
      cases shown
      exact ⟨rfl, rfl⟩
  | _ => cases shown

/-- The lists that legible trees are shown as. -/
structure PrefixList.WellFormed (list : PrefixList) : Prop where
  token : ∀ c ∈ list.word, isTokenChar c = true
  items_ne_nil : list.items ≠ []
  pattern : list.pattern?.isSome = true ↔ list.word = "regexp".toList

theorem Legible.list_wellFormed {node : Node} (legible : Legible registry node)
    {list : PrefixList} (shown : node.list? = some list) : list.WellFormed := by
  cases legible with
  | group inside =>
      cases shown
      exact ⟨isTokenChar_of_isIdentifier rfl, by simp, by simp⟩
  | @binary operator left right left_legible right_legible =>
      cases shown
      have noName : operator.symbol ≠ "regexp".toList := by cases operator <;> decide
      exact ⟨isTokenChar_symbol operator, by simp, by simpa using noName⟩
  | @call negate callee arguments takes named inside =>
      cases shown
      exact ⟨isTokenChar_of_isIdentifier named.isIdentifier,
        List.ne_nil_of_length_pos (Expr.pos_of_takes takes), named.pattern_iff⟩
  | _ => cases shown

/-! ## Kinds of trees -/

/-- The kind of the prefix form of a tree. -/
def Node.formKind : Node → FormKind
  | nil | bool _ | number _ => .word
  | text _ => .quoted
  | selector _ _ => .selector
  | group _ _ | binary _ _ _ | call _ _ _ => .list

/-- Behind the word of a list there is a blank. -/
theorem PrefixList.WellFormed.exists_blank {list : PrefixList} (wellFormed : list.WellFormed)
    (rest : List Char) : ∃ after,
      patternText list.pattern? ++ (Node.renderArguments list.items ++ rest) = ' ' :: after := by
  cases list.pattern? with
  | some pattern => exact ⟨_, rfl⟩
  | none =>
      rcases List.exists_cons_of_ne_nil wellFormed.items_ne_nil with ⟨item, items, same⟩
      rw [same]
      exact ⟨_, rfl⟩

/-- The kind of a tree is seen at the start of its form. -/
theorem Legible.formKindOf_render {node : Node} (legible : Legible registry node)
    (rest : List Char) : formKindOf (node.render ++ rest) = node.formKind := by
  cases shown : node.list? with
  | some list =>
      have kind : node.formKind = .list := by
        cases node <;> first | rfl | cases shown
      have wellFormed := legible.list_wellFormed shown
      rcases wellFormed.exists_blank ([')'] ++ rest) with ⟨after, behind⟩
      rw [kind, Node.render_of_list? shown]
      cases list.negate with
      | true => rfl
      | false =>
          have opened := formKindOf_parenthesis wellFormed.token (c := ' ') rfl after
          rw [← behind] at opened
          simpa [negation] using opened
  | none =>
      cases legible with
      | nil => rfl
      | bool b => cases b <;> rfl
      | number literal => exact formKindOf_number _ rest
      | text quotable => rfl
      | @selector origin subscripts wellFormed slotless inside =>
          cases origin with
          | field path slot =>
              have opened := formKindOf_parenthesis (isTokenChar_of_isFieldPath wellFormed)
                (c := ')') rfl ('$' :: Node.renderSubscripts subscripts ++ rest)
              simpa [Node.render, Origin.render, Node.formKind] using opened
          | _ => rfl
      | _ => cases shown

end FieldRules
