import FieldRules.Eval.Basic
import FieldRules.Proofs.Expr.Slots
import Mathlib.Data.List.Forall2

/-!
# Evaluation depends on what selectors find

Two scopes in which all selectors of an expression start at the same data give
the expression the same value.  A scope that answers by path gives it the same value
whatever slots its selectors have.
-/

namespace FieldRules

variable {scope other : Scope}

/-- Two scopes in which some origins start at the same data. -/
def Scope.Agree (scope other : Scope) (origins : List Origin) : Prop :=
  ∀ origin ∈ origins, ∀ element, origin.start scope element = origin.start other element

theorem Scope.Agree.mono {origins more : List Origin} (agree : scope.Agree other more)
    (subset : origins ⊆ more) : scope.Agree other origins := fun origin mem =>
  agree origin (subset mem)

variable [RegexLibrary]

namespace Node

/-- Two trees have the same datum, each in its scope, whatever element is visited. -/
def SameIn (scope other : Scope) (node copy : Node) : Prop :=
  ∀ element, node.eval scope element = copy.eval other element

variable {element visited : Element}

/-- Subscripts that have the same data lead to the same place. -/
theorem evalSubscripts_congr {subscripts copies : List Node}
    (same : List.Forall₂ (fun subscript copy =>
      subscript.eval scope element = copy.eval other visited) subscripts copies)
    (target : Datum) :
    evalSubscripts scope element target subscripts =
      evalSubscripts other visited target copies := by
  induction same generalizing target with
  | nil => rfl
  | cons first _ ih => simp only [evalSubscripts, first, ih]

theorem evalAll_congr {nodes copies : List Node}
    (same : List.Forall₂ (fun node copy =>
      node.eval scope element = copy.eval other visited) nodes copies) :
    evalAll scope element nodes = evalAll other visited copies := by
  induction same with
  | nil => rfl
  | cons first _ ih => simp only [evalAll, first, ih]

theorem evalCall_congr {arguments copies : List Node}
    (same : List.Forall₂ (SameIn scope other) arguments copies) (element : Element)
    (callee : Callee) :
    evalCall scope element callee arguments = evalCall other element callee copies := by
  cases same with
  | nil => rfl
  | @cons first copy rest copies firstSame restSame =>
      have all := evalAll_congr (restSame.imp fun _ _ same => same element)
      cases callee with
      | range =>
          cases restSame with
          | nil => simp only [evalCall, firstSame element]
          | @cons body bodyCopy _ _ bodySame _ =>
              -- The body sees every element in turn, so it must agree on all of them.
              have eachSame (visited : Element) :
                  body.eval scope visited = bodyCopy.eval other visited := bodySame visited
              simp only [evalCall, firstSame element, eachSame]
      | _ => simp only [evalCall, firstSame element, all]

theorem agree_of_mem {nodes : List Node} (agree : scope.Agree other (nodes.flatMap origins))
    {node : Node} (mem : node ∈ nodes) : scope.Agree other node.origins :=
  agree.mono fun _ inNode => List.mem_flatMap.mpr ⟨node, mem, inNode⟩

/-- Scopes that agree on the selectors of a tree give it the same datum. -/
theorem eval_congr {node : Node} (agree : scope.Agree other node.origins) :
    SameIn scope other node node := by
  intro element
  induction node using treeInduction generalizing element with
  | selector origin subscripts ih =>
      rw [origins, selectors, List.map_cons, listSelectors_origins] at agree
      have same (subscript) (mem : subscript ∈ subscripts) : SameIn scope other subscript subscript :=
        ih subscript mem (agree_of_mem (agree.mono (List.subset_cons_self _ _)) mem)
      rw [eval, eval, agree origin List.mem_cons_self element]
      exact evalSubscripts_congr
        (List.forall₂_same.mpr fun subscript mem => same subscript mem element) _
  | group negate inner ih => simp only [eval, ih agree]
  | binary operator left right leftIH rightIH =>
      rw [origins, selectors, List.map_append] at agree
      have leftSame := leftIH (agree.mono (List.subset_append_left _ _))
      have rightSame := rightIH (agree.mono (List.subset_append_right _ _))
      simp only [eval, leftSame, rightSame]
  | call negate callee arguments ih =>
      rw [origins, selectors, listSelectors_origins] at agree
      have same (argument) (mem : argument ∈ arguments) : SameIn scope other argument argument :=
        ih argument mem (agree_of_mem agree mem)
      simp only [eval, evalCall_congr (List.forall₂_same.mpr same)]
  | _ => rfl

/-- Slots do not matter in a scope that answers by path. -/
theorem eval_withSlots (byPath : ∀ slot path, scope.fieldAt slot path = scope.field path)
    (slotOf : String → Nat) (node : Node) : SameIn scope scope (node.withSlots slotOf) node := by
  intro element
  induction node using treeInduction generalizing element with
  | selector origin subscripts ih =>
      have start : (origin.withSlot slotOf).start scope element = origin.start scope element := by
        cases origin <;> simp only [Origin.withSlot, Origin.start, byPath]
      rw [withSlots, listWithSlots_eq_map, eval, eval, start]
      apply evalSubscripts_congr
      rw [List.forall₂_map_left_iff, List.forall₂_same]
      intro subscript mem
      exact ih subscript mem element
  | group negate inner ih => simp only [withSlots, eval, ih]
  | binary operator left right leftIH rightIH => simp only [withSlots, eval, leftIH, rightIH]
  | call negate callee arguments ih =>
      have same : List.Forall₂ (SameIn scope scope) (arguments.map (withSlots slotOf)) arguments := by
        rw [List.forall₂_map_left_iff, List.forall₂_same]
        exact ih
      simp only [withSlots, listWithSlots_eq_map, eval, evalCall_congr same]
  | _ => rfl

end Node

end FieldRules
