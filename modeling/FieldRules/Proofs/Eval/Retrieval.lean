import FieldRules.Proofs.Eval.Binding

/-!
# Subscripts find what `range` visits

A key that `range` visits may be used as a subscript of the same collection.  It
leads back to the value that was visited with it, except where the key is an integer
that no double is equal to, since keys are numbers while they are visited.
-/

namespace FieldRules

open Node

variable [RegexLibrary]

variable {scope : Scope} {key value : Datum}

/-- The tree of `$v==o[$k]`, where `o` is the start of a selector. -/
def foundAgain (origin : Origin) : Node :=
  .binary .eq (.selector .value []) (.selector origin [.selector .key []])

/-- A single subscript leads to what is stored under its datum. -/
theorem evalSubscripts_key (target : Datum) :
    evalSubscripts scope (some (key, value)) target [.selector .key []] =
      .ok (target.index key) := by
  have start : (Node.selector .key []).eval scope (some (key, value)) = .ok key := rfl
  rw [evalSubscripts, start, bind_ok]
  cases target.index key <;> rfl

theorem eval_foundAgain {origin : Origin} {collection : Datum}
    (started : origin.start scope (some (key, value)) = collection) :
    (foundAgain origin).eval scope (some (key, value)) =
      .ok (.bool (value.same (collection.index key))) := by
  have visited : (Node.selector .value []).eval scope (some (key, value)) = .ok value := rfl
  rw [foundAgain, eval, visited, bind_ok, eval, started, evalSubscripts_key, bind_ok]
  rfl

/-- The data of keys are the keys again except for integers that no double is equal
to; those up to `2 ^ 53` in magnitude are no exception.  So for everything that is
visited in a sequence, or in a mapping that holds keys of its kind, each once, as JSON
objects do, the subscript finds the value that is visited if the key is exact, and
`range(o,$v==o[$k])` is true if all keys are and all values are equal to themselves. -/
theorem subscripts_find_visited_elements :
    (∀ n : Int, n.natAbs ≤ 2 ^ 53 → Number.IsExact n) ∧
    (∀ (kind : KeyKind) (key : Key), kind.holds key = true →
      (kind.key? key.datum = some key ↔ key.IsExact)) ∧
    (∀ json : Json, json.datum.WellKeyed) ∧
    ∀ (collection : Datum) (elements : List (Datum × Datum)),
      collection.WellKeyed → collection.elements? = some elements →
        (∀ key value, (key, value) ∈ elements ↔
          ∃ place : Key, collection.Stores place value ∧ place.datum = key) ∧
        (∀ (place : Key) (value : Datum), collection.Stores place value → place.IsExact →
          collection.index place.datum = value) ∧
        ∀ (scope : Scope) (element : Element) (origin : Origin),
          origin ≠ .key → origin ≠ .value → origin.start scope element = collection →
            (∀ (place : Key) (value : Datum), collection.Stores place value →
              place.IsExact ∧ value.same value = true) →
            (rangeCall (.selector origin []) (foundAgain origin)).eval scope element =
              .ok (.bool true) := by
  constructor
  · intro n small
    exact Number.isExact_of_natAbs_le small
  constructor
  · intro kind key held
    exact KeyKind.key?_datum_iff held
  constructor
  · exact Json.wellKeyed_datum
  · intro collection elements wellKeyed listed
    constructor
    · intro key value
      exact Datum.mem_elements_iff listed
    constructor
    · intro place value stores exact
      exact Datum.index_datum wellKeyed stores exact
    · intro scope element origin noKey noValue started comparable
      have evaluated : (Node.selector origin []).eval scope element = .ok collection :=
        congrArg Except.ok started
      rw [eval_rangeCall_eq_true_iff evaluated listed]
      rintro ⟨key, value⟩ mem
      rcases (Datum.mem_elements_iff listed).mp mem with ⟨place, stores, rfl⟩
      rcases comparable place value stores with ⟨exact, same⟩
      have found := Datum.index_datum wellKeyed stores exact
      have visiting : origin.start scope (some (place.datum, value)) = collection :=
        (start_eq noKey noValue).trans started
      have again := eval_foundAgain visiting
      rw [found, same] at again
      exact ⟨.bool true, again, rfl⟩

end FieldRules

namespace FieldRules

open Node

attribute [local instance] RegexLibrary.empty

/-- A mapping from two bytes to their names. -/
def byteNames : Datum :=
  .ofEntries (.unsigned 8) [(.int 200, .text "b"), (.int 7, .text "a")]

/-- Both names are found again under their bytes. -/
theorem byte_names_found_again :
    byteNames.index (.number (Number.ofInt 200)) = .text "b" ∧
      (rangeCall .current (foundAgain .current)).eval (.ofCurrent byteNames) none =
        .ok (.bool true) := by
  rcases subscripts_find_visited_elements with ⟨small, -, -, collections⟩
  have held : ∀ entry ∈ [(Key.int 200, Datum.text "b"), (Key.int 7, Datum.text "a")],
      (KeyKind.unsigned 8).holds entry.1 = true := by decide
  have wellKeyed : byteNames.WellKeyed := Datum.wellKeyed_ofEntries held
  rcases collections byteNames _ wellKeyed rfl with ⟨-, found, again⟩
  constructor
  · exact found (.int 200) (.text "b") (.entry (List.mem_cons_of_mem _ List.mem_cons_self))
      (small 200 (by decide))
  · apply again (.ofCurrent byteNames) none .current (by decide) (by decide) rfl
    intro place value stores
    have sorted : Datum.Stores (.map (.unsigned 8) [(.int 7, .text "a"), (.int 200, .text "b")])
        place value := stores
    cases sorted with
    | entry mem =>
        rcases List.mem_pair.mp mem with same | same
        · cases same
          exact ⟨small 7 (by decide), rfl⟩
        · cases same
          exact ⟨small 200 (by decide), rfl⟩

/-- A mapping with two keys whose nearest double is the same. -/
def neighbours : Datum :=
  .ofEntries (.unsigned 64)
    [(.int 9007199254740992, .text "a"), (.int 9007199254740993, .text "b")]

/-- The greater of the keys leads to the value under the smaller one. -/
theorem neighbour_not_found_again :
    ¬ ∀ (collection : Datum) (elements : List (Datum × Datum)),
      collection.WellKeyed → collection.elements? = some elements →
        ∀ key value, (key, value) ∈ elements → collection.index key = value := by
  intro all
  have held : ∀ entry ∈ [(Key.int 9007199254740992, Datum.text "a"),
      (Key.int 9007199254740993, Datum.text "b")],
      (KeyKind.unsigned 64).holds entry.1 = true := by decide
  have wellKeyed : neighbours.WellKeyed := Datum.wellKeyed_ofEntries held
  have second := all neighbours _ wellKeyed rfl (.number (Number.ofInt 9007199254740993))
    (.text "b") (List.mem_cons_of_mem _ List.mem_cons_self)
  have first : neighbours.index (.number (Number.ofInt 9007199254740993)) = .text "a" := rfl
  rw [first] at second
  exact absurd (Datum.text.inj second) (by decide)

end FieldRules
