import FieldRules.Proofs.Datum.Documents
import FieldRules.Proofs.Eval.Calls
import FieldRules.Proofs.Eval.Congruence
import FieldRules.Proofs.Expr.Enclosing

/-!
# Paths into documents

Over a document, a dotted path in front of `$` leads where its names lead as subscripts
of `$`, one behind the other: to what is found below, or to nil.  Subscripts that follow
go on from there in both forms.  Only at nil there is a difference: subscripts break off
where they first lead to nil, but those behind a path start from what the path leads to,
so the first of them is evaluated even if that is nil.
-/

namespace FieldRules

open FieldRules.Text FieldRules.Expr

variable [RegexLibrary]

/-! ## Subscripts -/

namespace Node

variable {scope : Scope} {element : Element} {target : Datum} {names : List String}
  {nodes : List Node}

/-- Texts as subscripts lead down through their keys; subscripts behind them are reached
if that does not end at nil. -/
theorem evalSubscripts_texts (here : names ≠ [] ∨ target.isNil = false) :
    evalSubscripts scope element target (names.map .text ++ nodes) =
      if (target.descend names).isNil then .ok .nil
      else evalSubscripts scope element (target.descend names) nodes := by
  induction names generalizing target with
  | nil =>
      have found : target.isNil = false := here.resolve_left (absurd rfl)
      simp [Datum.descend, found]
  | cons name names ih =>
      have key : (Node.text name).eval scope element = .ok (.text name) := rfl
      rw [List.map_cons, List.cons_append, evalSubscripts, key, bind_ok, Datum.descend_cons]
      cases found : (target.index (.text name)).isNil with
      | true =>
          rw [Datum.eq_nil_of_isNil found, Datum.descend_nil]
          rfl
      | false =>
          simp only [found, Bool.false_eq_true, if_false]
          exact ih (.inr found)

/-- From nil, subscripts lead to nil if the first of them has a datum at all. -/
theorem evalSubscripts_nil_eq_ok_iff :
    evalSubscripts scope element .nil nodes = .ok .nil ↔
      ∀ first ∈ nodes.head?, ∃ datum, first.eval scope element = .ok datum := by
  cases nodes with
  | nil => simp [evalSubscripts]
  | cons first nodes =>
      rw [evalSubscripts, List.head?_cons]
      cases evaluated : first.eval scope element with
      | error fault => simp [evaluated]
      | ok key => simp [evaluated, Datum.isNil]

theorem eq_nil_of_evalSubscripts_nil {datum : Datum}
    (evaluated : evalSubscripts scope element .nil nodes = .ok datum) : datum = .nil := by
  cases nodes with
  | nil => exact (Except.ok.inj evaluated).symm
  | cons first nodes =>
      rw [evalSubscripts] at evaluated
      obtain ⟨key, -, rest⟩ := bind_eq_ok_iff.mp evaluated
      exact (Except.ok.inj rest).symm

end Node

/-! ## The two forms -/

/-- A dotted path in front of `$`, with subscripts behind it. -/
def referenceText (names : List String) (subscripts : List (List Char)) : List Char :=
  '(' :: (dotted names).toList ++ [')', '$'] ++ bracketed subscripts

/-- Names as quoted subscripts of `$`, with others behind them. -/
def subscriptText (names : List String) (subscripts : List (List Char)) : List Char :=
  '$' :: bracketed (names.map (fun name => '\'' :: name.toList ++ ['\'']) ++ subscripts)

variable {registry : Registry} {names : List String} {texts : List (List Char)}
  {trees : List Node} {document : Json}

theorem ofText_quoted_word {word : List Char} (valid : isWord word = true) :
    Node.ofText registry ('\'' :: word ++ ['\'']) = .ok (.text (.ofList word)) := by
  have plain {c : Char} (mark : isWordChar c = false) : c ∉ word := by
    intro mem
    rw [isWordChar_of_isWord valid c mem] at mark
    cases mark
  have quotable : Quotable (String.ofList word).toList := by
    rw [String.toList_ofList]
    exact quotable_of_not_mem (plain rfl)
  refine ofText_of_accepted (accepted_text quotable) ?_
  rw [spell_quoted, String.toList_ofList, singleQuoted_of_not_mem (plain rfl)]

/-- A tree is evaluated without regard to slots in a document. -/
theorem eval_ofTree (source : String) (tree : Node) (document : Json) :
    (Expression.ofTree source tree).eval document.scope = tree.eval document.scope none :=
  Node.eval_withSlots (fun _ _ => rfl) _ tree none

theorem ofText_reference (some : names ≠ []) (words : AreWords names)
    (read : List.Forall₂ (fun text tree => Node.ofText registry text = .ok tree) texts trees) :
    Node.ofText registry (referenceText names texts) =
      .ok (.selector (.field (dotted names) 0) trees) := by
  have start : SelectorHead (.field (dotted names) 0) (Origin.field (dotted names) 0).render :=
    .render (isFieldPath_dotted some words)
  exact ofText_selector start read

theorem ofText_subscripts (words : AreWords names)
    (read : List.Forall₂ (fun text tree => Node.ofText registry text = .ok tree) texts trees) :
    Node.ofText registry (subscriptText names texts) =
      .ok (.selector .current (names.map .text ++ trees)) := by
  have start : SelectorHead .current Origin.current.render := .render trivial
  have quoted : List.Forall₂ (fun text tree => Node.ofText registry text = .ok tree)
      (names.map fun name => '\'' :: name.toList ++ ['\'']) (names.map .text) := by
    rw [List.forall₂_map_left_iff, List.forall₂_map_right_iff, List.forall₂_same]
    intro name mem
    have word : Node.ofText registry ('\'' :: name.toList ++ ['\'']) =
        .ok (.text (.ofList name.toList)) := ofText_quoted_word (words name mem)
    rwa [String.ofList_toList] at word
  exact ofText_selector start (List.rel_append quoted read)

/-- Texts that are read as expressions have trees, which evaluate alike in documents. -/
theorem exists_trees {further : List Expression}
    (read : List.Forall₂ (fun text expression =>
      Expression.ofText registry (.ofList text) = .ok expression) texts further) :
    ∃ trees, List.Forall₂ (fun text tree => Node.ofText registry text = .ok tree) texts trees ∧
      List.Forall₂ (fun expression tree => ∀ document : Json,
        expression.eval document.scope = tree.eval document.scope none) further trees := by
  induction read with
  | nil => exact ⟨[], .nil, .nil⟩
  | cons first _ ih =>
      rw [Expression.ofText, String.toList_ofList] at first
      obtain ⟨tree, treeRead, rfl⟩ := map_eq_ok_iff.mp first
      obtain ⟨trees, treesRead, alike⟩ := ih
      exact ⟨tree :: trees, .cons treeRead treesRead, .cons (eval_ofTree _ tree) alike⟩

theorem eval_reference (some : names ≠ []) (words : AreWords names) (source : String) :
    (Expression.ofTree source (.selector (.field (dotted names) 0) trees)).eval document.scope =
      Node.evalSubscripts document.scope none (document.datum.descend names) trees := by
  rw [eval_ofTree, ← document.field_dotted some words]
  rfl

theorem eval_subscripts (some : names ≠ []) (source : String) :
    (Expression.ofTree source (.selector .current (names.map .text ++ trees))).eval
        document.scope =
      if (document.datum.descend names).isNil then .ok .nil
      else Node.evalSubscripts document.scope none (document.datum.descend names) trees := by
  rw [eval_ofTree]
  exact Node.evalSubscripts_texts (.inl some)

/-- Behind a path that leads to nil, a subscript without a datum is evaluated in one form
only. -/
theorem forms_differ_behind_nil (some : names ≠ []) (words : AreWords names) {text : List Char}
    {expression : Expression} {fault : Format.Fault}
    (read : Expression.ofText registry (.ofList text) = .ok expression)
    (missing : document.datum.descend names = .nil)
    (fails : expression.eval document.scope = .error fault) :
    ∃ reference subscripts : Expression,
      Expression.ofText registry (.ofList (referenceText names [text])) = .ok reference ∧
      Expression.ofText registry (.ofList (subscriptText names [text])) = .ok subscripts ∧
      reference.eval document.scope = .error fault ∧
      subscripts.eval document.scope = .ok .nil := by
  obtain ⟨trees, treesRead, alike⟩ := exists_trees (.cons read .nil)
  refine ⟨_, _, ofText_of_node (ofText_reference some words treesRead),
    ofText_of_node (ofText_subscripts words treesRead), ?_, ?_⟩
  · rw [eval_reference some words, missing]
    cases alike with
    | cons same _ =>
        rw [Node.evalSubscripts, ← same document, fails]
        rfl
  · rw [eval_subscripts some, missing]
    rfl

/-- In every document, a dotted reference `(p1.….pn)$` and the subscripts `$['p1']…['pn']`
lead to the same datum, with any further subscripts behind both, unless the path leads to
nil and the first of the further subscripts has no datum.  Then the reference has none
either, and the subscripts break off at nil. -/
theorem reference_equals_subscripts_of_names {registry : Registry} {names : List String}
    (some : names ≠ []) (words : AreWords names) {texts : List (List Char)}
    {further : List Expression}
    (read : List.Forall₂ (fun text expression =>
      Expression.ofText registry (.ofList text) = .ok expression) texts further) :
    ∃ reference subscripts : Expression,
      Expression.ofText registry (.ofList (referenceText names texts)) = .ok reference ∧
      Expression.ofText registry (.ofList (subscriptText names texts)) = .ok subscripts ∧
      ∀ document : Json,
        (reference.eval document.scope = subscripts.eval document.scope ↔
          document.scope.field (dotted names) ≠ .nil ∨
            ∀ first ∈ further.head?, ∃ datum, first.eval document.scope = .ok datum) ∧
        (∀ datum, reference.eval document.scope = .ok datum →
          subscripts.eval document.scope = .ok datum) ∧
        (document.scope.field (dotted names) = .nil →
          subscripts.eval document.scope = .ok .nil) ∧
        (texts = [] →
          subscripts.eval document.scope = .ok (document.scope.field (dotted names))) := by
  obtain ⟨trees, treesRead, alike⟩ := exists_trees read
  refine ⟨_, _, ofText_of_node (ofText_reference some words treesRead),
    ofText_of_node (ofText_subscripts words treesRead), fun document => ?_⟩
  rw [eval_reference some words, eval_subscripts some, document.field_dotted some words]
  have firstAlike : (∀ first ∈ further.head?, ∃ datum, first.eval document.scope = .ok datum) ↔
      ∀ first ∈ trees.head?, ∃ datum, first.eval document.scope none = .ok datum := by
    cases alike with
    | nil => simp
    | cons same _ => simp [same document]
  rw [firstAlike]
  cases found : (document.datum.descend names).isNil with
  | true =>
      rw [Datum.eq_nil_of_isNil found]
      refine ⟨?_, ?_, fun _ => rfl, fun _ => rfl⟩
      · simp [Node.evalSubscripts_nil_eq_ok_iff]
      · intro datum evaluated
        rw [Node.eq_nil_of_evalSubscripts_nil evaluated]
        rfl
  | false =>
      have there : document.datum.descend names ≠ .nil := by
        intro nothing
        rw [nothing] at found
        cases found
      refine ⟨by simp [there], by simp, fun missing => absurd missing there, ?_⟩
      rintro rfl
      cases treesRead
      rfl

end FieldRules

namespace FieldRules

open FieldRules.Text FieldRules.Expr

attribute [local instance] RegexLibrary.empty

/-- A document with members of members. -/
def nestedDocument : Json :=
  .object [("a", .object [("b", .object [("c", .bool true)])])]

/-- Both forms find the member of a member, and a further subscript in it. -/
theorem nested_member_found_both_ways :
    AreWords ["a", "b"] ∧ Expression.ofText .empty "'c'" = .ok (.ofTree "'c'" (.text "c")) ∧
      ∃ reference subscripts : Expression,
        Expression.ofText .empty "(a.b)$['c']" = .ok reference ∧
        Expression.ofText .empty "$['a']['b']['c']" = .ok subscripts ∧
        reference.eval nestedDocument.scope = subscripts.eval nestedDocument.scope ∧
        subscripts.eval nestedDocument.scope = .ok (.bool true) := by
  have words : AreWords ["a", "b"] :=
    List.forall_mem_cons.mpr ⟨rfl, List.forall_mem_singleton.mpr rfl⟩
  have node : Node.ofText .empty ['\'', 'c', '\''] = .ok (.text "c") := rfl
  have read : Expression.ofText .empty "'c'" = .ok (.ofTree "'c'" (.text "c")) :=
    ofText_of_node node
  have further : List.Forall₂ (fun text expression =>
      Expression.ofText .empty (.ofList text) = .ok expression) [['\'', 'c', '\'']]
      [.ofTree "'c'" (.text "c")] := .cons read .nil
  obtain ⟨reference, subscripts, referenceRead, subscriptsRead, inDocuments⟩ :=
    reference_equals_subscripts_of_names (List.cons_ne_nil "a" ["b"]) words further
  have spelled : "(a.b)$['c']" = String.ofList (referenceText ["a", "b"] [['\'', 'c', '\'']]) := by
    rw [referenceText, dotted, String.toList_intercalate]
    rfl
  refine ⟨words, read, reference, subscripts, spelled ▸ referenceRead, subscriptsRead, ?_, ?_⟩
  · apply (inDocuments nestedDocument).1.mpr
    refine .inr fun first mem => ⟨.text "c", ?_⟩
    cases mem
    rfl
  · have keys := ofText_of_node (ofText_subscripts words (.cons node .nil))
    cases Except.ok.inj (keys.symm.trans subscriptsRead)
    rfl

/-- Behind a name that an empty object does not have, a number shown with 70000 decimal
places is evaluated in one form only. -/
theorem long_fraction_behind_missing_name :
    ∃ reference subscripts : Expression,
      Expression.ofText .empty "(a)$[sprintf('%.70000f',1)]" = .ok reference ∧
      Expression.ofText .empty "$['a'][sprintf('%.70000f',1)]" = .ok subscripts ∧
      reference.eval (Json.object []).scope = .error .precisionOutOfRange ∧
      subscripts.eval (Json.object []).scope = .ok .nil := by
  let one : Number.Literal :=
    ⟨[], ['1'], [], by decide, by decide, List.forall_mem_singleton.mpr rfl, List.forall_mem_nil _⟩
  have noFlags : ∀ c ∈ ([] : List Char), c = '-' ∨ c = '0' := List.forall_mem_nil _
  have noWidth : ∀ c ∈ ([] : List Char), c.isDigit = true := List.forall_mem_nil _
  have digits : ∀ c ∈ ['7', '0', '0', '0', '0'], c.isDigit = true := List.all_eq_true.mp rfl
  obtain ⟨fraction, fractionRead, unprintable⟩ := sprintf_call_without_datum .empty one noFlags
    noWidth (by decide) digits (by decide) (by decide)
  have words : AreWords ["a"] := List.forall_mem_singleton.mpr rfl
  obtain ⟨reference, subscripts, referenceRead, subscriptsRead, fails, breaksOff⟩ :=
    forms_differ_behind_nil (List.cons_ne_nil _ _) words fractionRead rfl
      (unprintable (Json.object []).scope)
  refine ⟨reference, subscripts, ?_, subscriptsRead, fails, breaksOff⟩
  rw [referenceText, dotted, String.toList_intercalate] at referenceRead
  exact referenceRead

end FieldRules
