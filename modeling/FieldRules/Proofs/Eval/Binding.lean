import FieldRules.Proofs.Datum.Elements
import FieldRules.Proofs.Eval.Congruence
import FieldRules.Proofs.Outcome

/-!
# What `range` binds

A `range` call looks at its subject where it stands itself and at its body once for
each element, with the key and the value of that element in place of those around
the call.  So it holds exactly if its body holds for each element, and what is
visited around a tree matters to the selectors of the tree outside the bodies of its
`range` calls only.
-/

namespace FieldRules.Node

variable [RegexLibrary]

/-! ## Selectors outside of bodies -/

mutual

/-- The origins of the selectors of a tree outside the bodies of its `range` calls. -/
def outerOrigins : Node → List Origin
  | selector origin subscripts => origin :: listOuterOrigins subscripts
  | group _ inner => inner.outerOrigins
  | binary _ left right => left.outerOrigins ++ right.outerOrigins
  | call _ callee arguments => callOuterOrigins callee arguments
  | _ => []

/-- The outer origins of a call; behind its subject, a `range` call has its body. -/
def callOuterOrigins (callee : Callee) : (arguments : List Node) → List Origin
  | [] => []
  | first :: rest =>
      match callee with
      | .range => first.outerOrigins
      | _ => first.outerOrigins ++ listOuterOrigins rest

/-- The outer origins of several trees. -/
def listOuterOrigins : List Node → List Origin
  | [] => []
  | node :: nodes => node.outerOrigins ++ listOuterOrigins nodes

end

variable {scope : Scope} {element other : Element}

/-- Selectors with these origins start at the same data, whichever of two elements is
visited. -/
def Indifferent (scope : Scope) (element other : Element) (origins : List Origin) : Prop :=
  ∀ origin ∈ origins, origin.start scope element = origin.start scope other

omit [RegexLibrary] in
theorem indifferent_append {origins more : List Origin} :
    Indifferent scope element other (origins ++ more) ↔
      Indifferent scope element other origins ∧ Indifferent scope element other more :=
  List.forall_mem_append

theorem indifferent_of_mem {nodes : List Node}
    (indifferent : Indifferent scope element other (listOuterOrigins nodes)) {node : Node}
    (mem : node ∈ nodes) : Indifferent scope element other node.outerOrigins := by
  induction nodes with
  | nil => cases mem
  | cons first nodes ih =>
      rw [listOuterOrigins, indifferent_append] at indifferent
      rcases List.mem_cons.mp mem with rfl | later
      · exact indifferent.1
      · exact ih indifferent.2 later

/-- The body of a `range` call does not see what is visited around the call. -/
theorem evalCall_under {callee : Callee} {arguments : List Node}
    (same : ∀ argument ∈ arguments,
      Indifferent scope element other argument.outerOrigins →
        argument.eval scope element = argument.eval scope other)
    (indifferent : Indifferent scope element other (callOuterOrigins callee arguments)) :
    evalCall scope element callee arguments = evalCall scope other callee arguments := by
  cases arguments with
  | nil => rfl
  | cons first rest =>
      rcases List.forall_mem_cons.mp same with ⟨firstSame, restSame⟩
      cases callee with
      | range =>
          have subject := firstSame indifferent
          cases rest with
          | nil => simp only [evalCall, subject]
          | cons body rest => simp only [evalCall, subject]
      | _ =>
          simp only [callOuterOrigins, indifferent_append] at indifferent
          have subject := firstSame indifferent.1
          have others : evalAll scope element rest = evalAll scope other rest :=
            evalAll_congr (List.forall₂_same.mpr fun argument mem =>
              restSame argument mem (indifferent_of_mem indifferent.2 mem))
          simp only [evalCall, subject, others]

/-- A tree has the same datum under two elements if the selectors outside the bodies
of its `range` calls start at the same data. -/
theorem eval_under {node : Node}
    (indifferent : Indifferent scope element other node.outerOrigins) :
    node.eval scope element = node.eval scope other := by
  induction node using treeInduction with
  | selector origin subscripts ih =>
      rw [outerOrigins] at indifferent
      rcases List.forall_mem_cons.mp indifferent with ⟨start, inside⟩
      rw [eval, eval, start]
      exact evalSubscripts_congr (List.forall₂_same.mpr fun subscript mem =>
        ih subscript mem (indifferent_of_mem inside mem)) _
  | group negate inner ih =>
      simp only [eval, ih indifferent]
  | binary operator left right leftIH rightIH =>
      rw [outerOrigins, indifferent_append] at indifferent
      simp only [eval, leftIH indifferent.1, rightIH indifferent.2]
  | call negate callee arguments ih =>
      rw [outerOrigins] at indifferent
      simp only [eval, evalCall_under ih indifferent]
  | _ => rfl

omit [RegexLibrary] in
/-- Only `$k` and `$v` start at the element that is visited. -/
theorem start_eq {origin : Origin} (noKey : origin ≠ .key) (noValue : origin ≠ .value) :
    origin.start scope element = origin.start scope other := by
  cases origin with
  | key => exact absurd rfl noKey
  | value => exact absurd rfl noValue
  | current => rfl
  | field path slot => rfl

omit [RegexLibrary] in
theorem indifferent_of_unbound {origins : List Origin} (noKey : .key ∉ origins)
    (noValue : .value ∉ origins) : Indifferent scope element other origins := by
  intro origin mem
  apply start_eq
  · rintro rfl
    exact noKey mem
  · rintro rfl
    exact noValue mem

/-! ## All elements -/

/-- A body holds for an element that is visited. -/
def HoldsFor (scope : Scope) (body : Node) (visited : Datum × Datum) : Prop :=
  ∃ datum, body.eval scope (some visited) = .ok datum ∧ datum.truthy = true

/-- A call of `range`. -/
def rangeCall (subject body : Node) : Node :=
  call false .range [subject, body]

variable {subject body : Node} {collection : Datum} {elements : List (Datum × Datum)}

theorem eval_rangeCall_of_elements (evaluated : subject.eval scope element = .ok collection)
    (listed : collection.elements? = some elements) :
    (rangeCall subject body).eval scope element =
      (elements.mapM fun visited => body.eval scope (some visited)).map fun results =>
        .bool (results.all Datum.truthy) := by
  rw [rangeCall, eval, evalCall, evaluated]
  simp only [bind_ok, listed]
  cases elements.mapM fun visited => body.eval scope (some visited) with
  | error fault => rfl
  | ok results => exact congrArg (Except.ok ∘ Datum.bool) (Bool.bne_false _)

theorem eval_rangeCall_of_not_collection (evaluated : subject.eval scope element = .ok collection)
    (noCollection : collection.elements? = none) :
    (rangeCall subject body).eval scope element = .ok .nil := by
  rw [rangeCall, eval, evalCall, evaluated]
  simp only [bind_ok, noCollection, Datum.negateIf]

/-- All results are truthy if the body holds for each element. -/
theorem all_truthy_iff {results : List Datum}
    (aligned : List.Forall₂ (fun visited result => body.eval scope (some visited) = .ok result)
      elements results) :
    results.all Datum.truthy = true ↔ ∀ visited ∈ elements, HoldsFor scope body visited := by
  induction aligned with
  | nil => simp
  | @cons visited result elements results here _ ih =>
      rw [List.all_cons, Bool.and_eq_true, List.forall_mem_cons, ih]
      apply and_congr_left'
      constructor
      · intro truthy
        exact ⟨result, here, truthy⟩
      · rintro ⟨datum, again, truthy⟩
        cases here.symm.trans again
        exact truthy

theorem eval_rangeCall_eq_true_iff (evaluated : subject.eval scope element = .ok collection)
    (listed : collection.elements? = some elements) :
    (rangeCall subject body).eval scope element = .ok (.bool true) ↔
      ∀ visited ∈ elements, HoldsFor scope body visited := by
  rw [eval_rangeCall_of_elements evaluated listed, map_eq_ok_iff]
  constructor
  · rintro ⟨results, visits, all⟩
    exact (all_truthy_iff (mapM_eq_ok_iff.mp visits)).mp (Datum.bool.inj all)
  · intro holds
    have exist : ∀ visited ∈ elements, ∃ result, body.eval scope (some visited) = .ok result := by
      intro visited mem
      rcases holds visited mem with ⟨datum, evaluated, -⟩
      exact ⟨datum, evaluated⟩
    rcases exists_forall₂_iff.mpr exist with ⟨results, aligned⟩
    exact ⟨results, mapM_eq_ok_iff.mpr aligned,
      congrArg Datum.bool ((all_truthy_iff aligned).mpr holds)⟩

/-- A `range` call has a truth value if its body has a datum for each element. -/
theorem exists_eval_rangeCall_iff (evaluated : subject.eval scope element = .ok collection)
    (listed : collection.elements? = some elements) :
    (∃ holds, (rangeCall subject body).eval scope element = .ok (.bool holds)) ↔
      ∀ visited ∈ elements, ∃ datum, body.eval scope (some visited) = .ok datum := by
  rw [eval_rangeCall_of_elements evaluated listed, ← exists_forall₂_iff]
  constructor
  · rintro ⟨holds, mapped⟩
    rcases map_eq_ok_iff.mp mapped with ⟨results, visits, -⟩
    exact ⟨results, mapM_eq_ok_iff.mp visits⟩
  · rintro ⟨results, aligned⟩
    exact ⟨_, map_eq_ok_iff.mpr ⟨results, mapM_eq_ok_iff.mpr aligned, rfl⟩⟩

end FieldRules.Node

namespace FieldRules

open Node

section

variable [RegexLibrary]

/-- Over a collection, `range` is true if its body holds for everything that the
collection stores, with the datum of the key as `$k` and the value as `$v`, and it has
a truth value if the body has a datum for all of it.  Over anything else it is nil.  A
tree that holds no `$k` and no `$v` outside the bodies of its `range` calls has the same
datum whatever is visited around it. -/
theorem range_is_scoped_for_all :
    (∀ (scope : Scope) (element : Element) (subject body : Node) (collection : Datum),
      subject.eval scope element = .ok collection → collection.isCollection = true →
        ((rangeCall subject body).eval scope element = .ok (.bool true) ↔
          ∀ key value, collection.Stores key value →
            HoldsFor scope body (key.datum, value)) ∧
        ((∃ holds, (rangeCall subject body).eval scope element = .ok (.bool holds)) ↔
          ∀ key value, collection.Stores key value →
            ∃ datum, body.eval scope (some (key.datum, value)) = .ok datum)) ∧
    (∀ (scope : Scope) (element : Element) (subject body : Node) (datum : Datum),
      subject.eval scope element = .ok datum → datum.isCollection = false →
        (rangeCall subject body).eval scope element = .ok .nil) ∧
    (∀ (scope : Scope) (key value : Datum),
      (Node.selector .key []).eval scope (some (key, value)) = .ok key ∧
        (Node.selector .value []).eval scope (some (key, value)) = .ok value) ∧
    ∀ (scope : Scope) (node : Node), .key ∉ node.outerOrigins → .value ∉ node.outerOrigins →
      ∀ element other : Element, node.eval scope element = node.eval scope other := by
  constructor
  · intro scope element subject body collection evaluated isCollection
    rw [← Datum.isSome_elements?, Option.isSome_iff_exists] at isCollection
    rcases isCollection with ⟨elements, listed⟩
    rw [eval_rangeCall_eq_true_iff evaluated listed, exists_eval_rangeCall_iff evaluated listed]
    exact ⟨Datum.forall_mem_elements_iff listed, Datum.forall_mem_elements_iff listed⟩
  constructor
  · intro scope element subject body datum evaluated noCollection
    rw [← Datum.isSome_elements?, Option.isSome_eq_false_iff, Option.isNone_iff_eq_none]
      at noCollection
    exact eval_rangeCall_of_not_collection evaluated noCollection
  constructor
  · intro scope key value
    exact ⟨rfl, rfl⟩
  · intro scope node noKey noValue element other
    exact eval_under (indifferent_of_unbound noKey noValue)

end

attribute [local instance] RegexLibrary.empty

/-- The tree of `range($v,$v)&&$k=='a'`. -/
def nestedBody : Node :=
  .binary .and (rangeCall (.selector .value []) (.selector .value []))
    (.binary .eq (.selector .key []) (.text "a"))

/-- Behind a `range` call inside the body, `$k` is the key that is visited around it. -/
theorem nested_range_keeps_key :
    let table := Datum.map .text [(.text "a", .seq [.bool true])]
    let scope := Scope.ofCurrent table
    (rangeCall .current nestedBody).eval scope none = .ok (.bool true) ∧
      ∀ element other, (rangeCall .current nestedBody).eval scope element =
        (rangeCall .current nestedBody).eval scope other := by
  intro table scope
  rcases range_is_scoped_for_all with ⟨collections, -, -, unbound⟩
  constructor
  · apply (collections scope none .current nestedBody table rfl rfl).1.mpr
    have holds : ∀ visited ∈ [(Datum.text "a", Datum.seq [.bool true])],
        HoldsFor scope nestedBody visited :=
      List.forall_mem_singleton.mpr ⟨.bool true, rfl, rfl⟩
    exact (Datum.forall_mem_elements_iff rfl).mp holds
  · exact unbound scope (rangeCall .current nestedBody) (by decide) (by decide)

end FieldRules
