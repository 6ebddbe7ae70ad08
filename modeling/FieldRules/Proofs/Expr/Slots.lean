import FieldRules.Expr.Node
import Mathlib.Data.List.Basic

/-!
# Slots do not change what a tree says

The slots of a tree are numbered after it has been read.  Giving new slots keeps
everything else: the paths of the selectors and how tightly the tree binds, and
of several numberings the last one counts.
-/

namespace FieldRules.Node

variable [RegexLibrary]

/-- Induction over all parts of a tree. -/
@[elab_as_elim]
theorem treeInduction {motive : Node → Prop} (nil : motive .nil) (bool : ∀ b, motive (.bool b))
    (number : ∀ x, motive (.number x)) (text : ∀ s, motive (.text s))
    (selector : ∀ origin subscripts, (∀ subscript ∈ subscripts, motive subscript) →
      motive (.selector origin subscripts))
    (group : ∀ negate inner, motive inner → motive (.group negate inner))
    (binary : ∀ operator left right, motive left → motive right →
      motive (.binary operator left right))
    (call : ∀ negate callee arguments, (∀ argument ∈ arguments, motive argument) →
      motive (.call negate callee arguments)) :
    ∀ node, motive node
  | .nil => nil
  | .bool b => bool b
  | .number x => number x
  | .text s => text s
  | .selector origin subscripts =>
      selector origin subscripts fun subscript _ =>
        treeInduction nil bool number text selector group binary call subscript
  | .group negate inner =>
      group negate inner (treeInduction nil bool number text selector group binary call inner)
  | .binary operator left right =>
      binary operator left right
        (treeInduction nil bool number text selector group binary call left)
        (treeInduction nil bool number text selector group binary call right)
  | .call negate callee arguments =>
      call negate callee arguments fun argument _ =>
        treeInduction nil bool number text selector group binary call argument

variable {slotOf : String → Nat}

theorem listWithSlots_eq_map (nodes : List Node) :
    listWithSlots slotOf nodes = nodes.map (withSlots slotOf) := by
  induction nodes with
  | nil => rfl
  | cons node nodes ih => rw [listWithSlots, ih, List.map_cons]

theorem listSelectors_eq_flatMap (nodes : List Node) :
    listSelectors nodes = nodes.flatMap selectors := by
  induction nodes with
  | nil => rfl
  | cons node nodes ih => rw [listSelectors, ih, List.flatMap_cons]

@[simp]
theorem priority_withSlots (node : Node) : (node.withSlots slotOf).priority = node.priority := by
  cases node <;> rfl

omit [RegexLibrary] in
@[simp]
theorem withSlot_withSlot (origin : Origin) (next : String → Nat) :
    (origin.withSlot slotOf).withSlot next = origin.withSlot next := by
  cases origin <;> rfl

omit [RegexLibrary] in
@[simp]
theorem path?_withSlot (origin : Origin) : (origin.withSlot slotOf).path? = origin.path? := by
  cases origin <;> rfl

/-- Of two numberings the last one counts. -/
@[simp]
theorem withSlots_withSlots (node : Node) (next : String → Nat) :
    (node.withSlots slotOf).withSlots next = node.withSlots next := by
  induction node using treeInduction with
  | selector origin subscripts ih =>
      simp only [withSlots, listWithSlots_eq_map, withSlot_withSlot, List.map_map]
      exact congrArg _ (List.map_congr_left ih)
  | group negate inner ih => simp only [withSlots, ih]
  | binary operator left right leftIH rightIH => simp only [withSlots, leftIH, rightIH]
  | call negate callee arguments ih =>
      simp only [withSlots, listWithSlots_eq_map, List.map_map]
      exact congrArg _ (List.map_congr_left ih)
  | _ => rfl

/-- The origins of all selectors in order. -/
def origins (node : Node) : List Origin :=
  node.selectors.map (·.1)

theorem listSelectors_origins (nodes : List Node) :
    (listSelectors nodes).map (·.1) = nodes.flatMap origins := by
  rw [listSelectors_eq_flatMap, List.map_flatMap]
  rfl

theorem origins_listWithSlots {nodes : List Node}
    (each : ∀ node ∈ nodes, (node.withSlots slotOf).origins =
      node.origins.map (Origin.withSlot slotOf)) :
    (listWithSlots slotOf nodes).flatMap origins =
      (nodes.flatMap origins).map (Origin.withSlot slotOf) := by
  rw [listWithSlots_eq_map, List.flatMap_map, List.map_flatMap]
  exact List.flatMap_congr each

/-- Slots are given to the origins of the selectors. -/
theorem origins_withSlots (node : Node) :
    (node.withSlots slotOf).origins = node.origins.map (Origin.withSlot slotOf) := by
  induction node using treeInduction with
  | selector origin subscripts ih =>
      simp only [origins, withSlots, selectors, List.map_cons, listSelectors_origins,
        origins_listWithSlots ih]
  | group negate inner ih => exact ih
  | binary operator left right leftIH rightIH =>
      simp only [origins, withSlots, selectors, List.map_append] at leftIH rightIH ⊢
      rw [leftIH, rightIH]
  | call negate callee arguments ih =>
      simp only [origins, withSlots, selectors, listSelectors_origins, origins_listWithSlots ih]
  | _ => rfl

theorem fieldPaths_eq (node : Node) :
    node.fieldPaths = (node.origins.filterMap Origin.path?).eraseDups := by
  rw [fieldPaths, origins, List.filterMap_map]
  rfl

/-- Slots do not change the paths of a tree. -/
@[simp]
theorem fieldPaths_withSlots (node : Node) :
    (node.withSlots slotOf).fieldPaths = node.fieldPaths := by
  rw [fieldPaths_eq, fieldPaths_eq, origins_withSlots, List.filterMap_map]
  exact congrArg List.eraseDups (List.filterMap_congr fun origin _ => path?_withSlot origin)

omit [RegexLibrary] in
theorem nodup_eraseDups {α : Type} [BEq α] [LawfulBEq α] (entries : List α) :
    entries.eraseDups.Nodup := by
  induction count : entries.length using Nat.strongRecOn generalizing entries with
  | _ count ih =>
  cases entries with
  | nil => exact .nil
  | cons entry entries =>
      rw [List.eraseDups_cons]
      refine List.nodup_cons.mpr ⟨by simp [List.mem_eraseDups], ih _ ?_ _ rfl⟩
      rw [← count]
      exact Nat.lt_succ_of_le (List.length_filter_le _ _)

/-- No path has two slots. -/
theorem nodup_fieldPaths (node : Node) : node.fieldPaths.Nodup :=
  nodup_eraseDups _

/-- The slot that a tree's numbering gives to an origin counts its path. -/
theorem getElem?_fieldPaths_of_mem_origins {tree : Node} {path : String} {slot : Nat}
    (mem : .field path slot ∈ (tree.withSlots tree.fieldPaths.idxOf).origins) :
    tree.fieldPaths[slot]? = some path := by
  rw [origins_withSlots] at mem
  obtain ⟨origin, inOrigins, same⟩ := List.mem_map.mp mem
  cases origin with
  | field path' slot' =>
      obtain ⟨rfl, rfl⟩ : path' = path ∧ tree.fieldPaths.idxOf path' = slot := by
        simpa [Origin.withSlot] using same
      have named : path' ∈ tree.fieldPaths := by
        rw [fieldPaths_eq, List.mem_eraseDups]
        exact List.mem_filterMap.mpr ⟨_, inOrigins, rfl⟩
      exact List.getElem?_idxOf named
  | _ => cases same

/-- A tree as it is read: the slots are not given yet. -/
def unslotted (node : Node) : Node :=
  node.withSlots fun _ => 0

theorem unslotted_selector (origin : Origin) (subscripts : List Node) :
    (selector origin subscripts).unslotted =
      selector (origin.withSlot fun _ => 0) (subscripts.map unslotted) :=
  congrArg _ (listWithSlots_eq_map subscripts)

theorem unslotted_call (negate : Bool) (callee : Callee) (arguments : List Node) :
    (call negate callee arguments).unslotted =
      call negate callee (arguments.map unslotted) :=
  congrArg _ (listWithSlots_eq_map arguments)

@[simp]
theorem priority_unslotted (node : Node) : node.unslotted.priority = node.priority :=
  priority_withSlots node

end FieldRules.Node

namespace FieldRules

variable [RegexLibrary]

/-- Numbering the slots of a tree does not depend on the slots it has. -/
theorem Expression.ofTree_unslotted (source : String) (tree : Node) :
    ofTree source tree.unslotted = ofTree source tree := by
  simp [ofTree, Node.unslotted]

end FieldRules
