import FieldRules.Proofs.Expr.PrefixForms

/-!
# What is not shown of a tree

A call of a predicate that is registered under the name `group` is shown as a group is, and
slots are not shown at all.  Trees that differ in nothing else have one prefix form.
-/

namespace FieldRules.Node

variable [RegexLibrary]

/-! ## Calls that are shown as groups -/

/-- A call, or the group that is shown as this call is. -/
def callOrGroup (negate : Bool) (callee : Callee) : List Node → Node
  | [argument] =>
      if callee.name = "group" then .group negate argument else .call negate callee [argument]
  | arguments => .call negate callee arguments

mutual

/-- Replace every call that is shown as a group is by this group. -/
def withGroups : Node → Node
  | selector origin subscripts => selector origin (listWithGroups subscripts)
  | group negate inner => group negate inner.withGroups
  | binary operator left right => binary operator left.withGroups right.withGroups
  | call negate callee arguments => callOrGroup negate callee (listWithGroups arguments)
  | node => node

/-- Replace the calls in several trees that are shown as groups are. -/
def listWithGroups : List Node → List Node
  | [] => []
  | node :: nodes => node.withGroups :: listWithGroups nodes

end

theorem listWithGroups_eq_map (nodes : List Node) :
    listWithGroups nodes = nodes.map withGroups := by
  induction nodes with
  | nil => rfl
  | cons node nodes ih => rw [listWithGroups, ih, List.map_cons]

theorem withGroups_selector (origin : Origin) (subscripts : List Node) :
    (selector origin subscripts).withGroups = selector origin (subscripts.map withGroups) := by
  rw [withGroups, listWithGroups_eq_map]

theorem withGroups_call (negate : Bool) (callee : Callee) (arguments : List Node) :
    (call negate callee arguments).withGroups =
      callOrGroup negate callee (arguments.map withGroups) := by
  rw [withGroups, listWithGroups_eq_map]

theorem callOrGroup_of_name_ne {callee : Callee} (other : callee.name ≠ "group") (negate : Bool)
    (arguments : List Node) :
    callOrGroup negate callee arguments = call negate callee arguments := by
  rw [callOrGroup.eq_def]
  split
  · exact if_neg other
  · rfl

theorem callOrGroup_cases (negate : Bool) (callee : Callee) (arguments : List Node) :
    callOrGroup negate callee arguments = call negate callee arguments ∨
      ∃ argument, arguments = [argument] ∧ callee.name = "group" ∧
        callOrGroup negate callee arguments = group negate argument := by
  match arguments with
  | [argument] =>
      by_cases named : callee.name = "group"
      · exact .inr ⟨argument, rfl, named, if_pos named⟩
      · exact .inl (if_neg named)
  | [] => exact .inl rfl
  | _ :: _ :: _ => exact .inl rfl

/-! ## What a replacement keeps -/

/-- A call that is replaced is shown as the group in its place. -/
theorem render_callOrGroup (negate : Bool) (callee : Callee) (arguments : List Node) :
    (callOrGroup negate callee arguments).render = (call negate callee arguments).render := by
  rcases callOrGroup_cases negate callee arguments with same | ⟨argument, rfl, named, same⟩
  · rw [same]
  · have noPattern : callee.pattern? = none := by
      cases callee <;> first | rfl | simp [Callee.name] at named
    rw [same]
    simp [render, Callee.render_eq, named, noPattern, patternText, renderArguments]

theorem origins_callOrGroup (negate : Bool) (callee : Callee) (arguments : List Node) :
    (callOrGroup negate callee arguments).origins = (call negate callee arguments).origins := by
  rcases callOrGroup_cases negate callee arguments with same | ⟨argument, rfl, -, same⟩
  · rw [same]
  · rw [same]
    simp [origins, selectors, listSelectors]

theorem withSlots_callOrGroup (slotOf : String → Nat) (negate : Bool) (callee : Callee)
    (arguments : List Node) :
    (callOrGroup negate callee arguments).withSlots slotOf =
      callOrGroup negate callee (arguments.map (withSlots slotOf)) := by
  match arguments with
  | [argument] =>
      by_cases named : callee.name = "group"
      · simp [callOrGroup, named, withSlots]
      · simp [callOrGroup, named, withSlots, listWithSlots]
  | [] => rfl
  | _ :: _ :: _ => simp [callOrGroup, withSlots, listWithSlots_eq_map]

/-- The forms of several trees, each between a mark and a closing text. -/
def marked (mark : Char) (closing : List Char) (nodes : List Node) : List Char :=
  nodes.flatMap fun node => mark :: node.render ++ closing

theorem renderSubscripts_eq (nodes : List Node) :
    renderSubscripts nodes = marked '[' [']'] nodes := by
  induction nodes with
  | nil => rfl
  | cons node nodes ih => simp [renderSubscripts, marked, ih]

theorem renderArguments_eq (nodes : List Node) : renderArguments nodes = marked ' ' [] nodes := by
  induction nodes with
  | nil => rfl
  | cons node nodes ih => simp [renderArguments, marked, ih]

/-- What changes no form in a list does not change the list of forms. -/
theorem marked_map {change : Node → Node} {nodes : List Node}
    (each : ∀ node ∈ nodes, (change node).render = node.render) (mark : Char)
    (closing : List Char) : marked mark closing (nodes.map change) = marked mark closing nodes := by
  rw [marked, List.flatMap_map]
  exact List.flatMap_congr fun node mem => by rw [each node mem]

/-- A tree is shown as it is with its groups in place. -/
theorem render_withGroups (node : Node) : node.withGroups.render = node.render := by
  induction node using treeInduction with
  | selector origin subscripts ih =>
      rw [withGroups_selector, render, render, renderSubscripts_eq, marked_map ih,
        ← renderSubscripts_eq]
  | group negate inner ih => rw [withGroups, render, render, ih]
  | binary operator left right leftIH rightIH => rw [withGroups, render, render, leftIH, rightIH]
  | call negate callee arguments ih =>
      rw [withGroups_call, render_callOrGroup, render, render, renderArguments_eq, marked_map ih,
        ← renderArguments_eq]
  | _ => rfl

theorem origins_withGroups (node : Node) : node.withGroups.origins = node.origins := by
  induction node using treeInduction with
  | selector origin subscripts ih =>
      rw [withGroups_selector]
      simp only [origins, selectors, List.map_cons, listSelectors_origins, List.flatMap_map]
      exact congrArg (origin :: ·) (List.flatMap_congr ih)
  | group negate inner ih => exact ih
  | binary operator left right leftIH rightIH =>
      simp only [origins, withGroups, selectors, List.map_append] at leftIH rightIH ⊢
      rw [leftIH, rightIH]
  | call negate callee arguments ih =>
      rw [withGroups_call, origins_callOrGroup]
      simp only [origins, selectors, listSelectors_origins, List.flatMap_map]
      exact List.flatMap_congr ih
  | _ => rfl

theorem fieldPaths_withGroups (node : Node) : node.withGroups.fieldPaths = node.fieldPaths := by
  rw [fieldPaths_eq, fieldPaths_eq, origins_withGroups]

theorem withGroups_withSlots (slotOf : String → Nat) (node : Node) :
    (node.withSlots slotOf).withGroups = node.withGroups.withSlots slotOf := by
  induction node using treeInduction with
  | selector origin subscripts ih =>
      simp only [withSlots, withGroups_selector, listWithSlots_eq_map, List.map_map]
      exact congrArg _ (List.map_congr_left ih)
  | group negate inner ih => simp only [withSlots, withGroups, ih]
  | binary operator left right leftIH rightIH =>
      simp only [withSlots, withGroups, leftIH, rightIH]
  | call negate callee arguments ih =>
      simp only [withSlots, withGroups_call, listWithSlots_eq_map, withSlots_callOrGroup,
        List.map_map]
      exact congrArg _ (List.map_congr_left ih)
  | _ => rfl

/-! ## Slots -/

/-- Slots are not shown. -/
theorem render_withSlots (slotOf : String → Nat) (node : Node) :
    (node.withSlots slotOf).render = node.render := by
  induction node using treeInduction with
  | selector origin subscripts ih =>
      have start : (origin.withSlot slotOf).render = origin.render := by cases origin <;> rfl
      rw [withSlots, listWithSlots_eq_map, render, render, start, renderSubscripts_eq,
        marked_map ih, ← renderSubscripts_eq]
  | group negate inner ih => rw [withSlots, render, render, ih]
  | binary operator left right leftIH rightIH => rw [withSlots, render, render, leftIH, rightIH]
  | call negate callee arguments ih =>
      rw [withSlots, listWithSlots_eq_map, render, render, renderArguments_eq, marked_map ih,
        ← renderArguments_eq]
  | _ => rfl

theorem listSubtrees_withSlots {slotOf : String → Nat} {nodes : List Node}
    (each : ∀ node ∈ nodes, (node.withSlots slotOf).subtrees =
      node.subtrees.map (withSlots slotOf)) :
    listSubtrees (listWithSlots slotOf nodes) = (listSubtrees nodes).map (withSlots slotOf) := by
  induction nodes with
  | nil => rfl
  | cons node nodes ih =>
      rcases List.forall_mem_cons.mp each with ⟨first, rest⟩
      rw [listWithSlots, listSubtrees, listSubtrees, first, ih rest, List.map_append]

theorem subtrees_withSlots (slotOf : String → Nat) (node : Node) :
    (node.withSlots slotOf).subtrees = node.subtrees.map (withSlots slotOf) := by
  induction node using treeInduction with
  | selector origin subscripts ih =>
      simp only [withSlots, subtrees, List.map_cons, listSubtrees_withSlots ih]
  | group negate inner ih => simp only [withSlots, subtrees, List.map_cons, ih]
  | binary operator left right leftIH rightIH =>
      simp only [withSlots, subtrees, List.map_cons, List.map_append, leftIH, rightIH]
  | call negate callee arguments ih =>
      simp only [withSlots, subtrees, List.map_cons, listSubtrees_withSlots ih]
  | _ => rfl

theorem patterns_withSlots (slotOf : String → Nat) (node : Node) :
    (node.withSlots slotOf).patterns = node.patterns := by
  have own (node : Node) : (node.withSlots slotOf).pattern? = node.pattern? := by
    cases node <;> rfl
  rw [patterns, subtrees_withSlots, List.filterMap_map]
  exact List.filterMap_congr fun subtree _ => own subtree

end FieldRules.Node
