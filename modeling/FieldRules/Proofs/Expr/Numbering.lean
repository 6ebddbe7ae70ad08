import FieldRules.Proofs.Expr.Slots
import Mathlib.Data.List.Induction

/-!
# Numbering a tree in one walk

The slots of a tree can be given in the walk that collects its paths: a path that
was met before has the position at which it was put down, and a new path is put
down behind the others.  Such a walk leaves the list of field paths, and the slots
that it gave on the way count this list, because positions in a list stay what
they are when the list grows at its end.
-/

namespace FieldRules

/-! ## Paths that are met -/

/-- Put down a path behind those met before, unless it is one of them. -/
def meet (met : List String) (path : String) : List String :=
  if path ∈ met then met else met ++ [path]

variable {met final paths : List String} {path : String}

theorem meet_of_mem (mem : path ∈ met) : meet met path = met :=
  if_pos mem

theorem meet_of_not_mem (new : path ∉ met) : meet met path = met ++ [path] :=
  if_neg new

theorem prefix_meet : met <+: meet met path := by
  by_cases mem : path ∈ met
  · exact ⟨[], by rw [List.append_nil, meet_of_mem mem]⟩
  · rw [meet_of_not_mem mem]
    exact List.prefix_append met [path]

theorem prefix_foldl_meet : met <+: paths.foldl meet met := by
  induction paths generalizing met with
  | nil => exact List.prefix_rfl
  | cons path paths ih => exact prefix_meet.trans ih

/-- The position of a path that is met is final, as the list only grows behind it. -/
theorem idxOf_of_meet_prefix (grown : meet met path <+: final) :
    met.idxOf path = final.idxOf path := by
  rcases grown with ⟨rest, rfl⟩
  by_cases mem : path ∈ met
  · rw [meet_of_mem mem, List.idxOf_append_of_mem mem]
  · rw [meet_of_not_mem mem, List.append_assoc, List.idxOf_append_of_notMem mem,
      List.idxOf_eq_length mem, List.singleton_append, List.idxOf_cons_self, Nat.add_zero]

/-- Meeting paths puts down the new ones, each once. -/
theorem foldl_meet_eq :
    paths.foldl meet met = met ++ (paths.filter (· ∉ met)).eraseDups := by
  induction paths generalizing met with
  | nil => simp
  | cons path paths ih =>
      rw [List.foldl_cons, ih]
      by_cases mem : path ∈ met
      · rw [meet_of_mem mem, List.filter_cons_of_neg (by simpa using mem)]
      · rw [meet_of_not_mem mem, List.filter_cons_of_pos (by simpa using mem),
          List.eraseDups_cons, List.filter_filter, List.append_assoc, List.singleton_append]
        congr 4
        funext other
        simp [Bool.and_comm, beq_eq_decide]

theorem eraseDups_eq_foldl_meet : paths.eraseDups = paths.foldl meet [] := by
  simp [foldl_meet_eq]

/-- Paths are put down in the order in which they are first met. -/
theorem pairwise_eraseDups (paths : List String) :
    paths.eraseDups.Pairwise fun first second => paths.idxOf first < paths.idxOf second := by
  rw [eraseDups_eq_foldl_meet]
  induction paths using List.reverseRecOn with
  | nil => exact .nil
  | append_singleton paths path ih =>
      have listed {other : String} : other ∈ paths.foldl meet [] ↔ other ∈ paths := by
        rw [← eraseDups_eq_foldl_meet, List.mem_eraseDups]
      have kept : (paths.foldl meet []).Pairwise fun first second =>
          (paths ++ [path]).idxOf first < (paths ++ [path]).idxOf second := by
        refine ih.imp_of_mem fun {first second} inFirst inSecond before => ?_
        rw [List.idxOf_append_of_mem (listed.mp inFirst),
          List.idxOf_append_of_mem (listed.mp inSecond)]
        exact before
      rw [List.foldl_append, List.foldl_cons, List.foldl_nil]
      by_cases mem : path ∈ paths
      · rw [meet_of_mem (listed.mpr mem)]
        exact kept
      · rw [meet_of_not_mem (mt listed.mp mem), List.pairwise_append]
        refine ⟨kept, List.pairwise_singleton _ _, ?_⟩
        intro first inFirst last isLast
        rw [List.mem_singleton.mp isLast, List.idxOf_append_of_mem (listed.mp inFirst),
          List.idxOf_append_of_notMem mem]
        exact Nat.lt_add_right _ (List.idxOf_lt_length_of_mem (listed.mp inFirst))

variable [RegexLibrary]

/-! ## The walk -/

/-- Number an origin; the result has the paths met afterwards. -/
def Origin.numbered (met : List String) : Origin → Origin × List String
  | .field path _ => (.field path (met.idxOf path), meet met path)
  | origin => (origin, met)

namespace Node

mutual

/-- Number the field selectors of a tree in one walk, a selector before those in
its subscripts; the result has the paths met afterwards. -/
def numbered (met : List String) : Node → Node × List String
  | selector origin subscripts =>
      let first := origin.numbered met
      let rest := listNumbered first.2 subscripts
      (selector first.1 rest.1, rest.2)
  | group negate inner =>
      let inside := inner.numbered met
      (group negate inside.1, inside.2)
  | binary operator left right =>
      let first := left.numbered met
      let second := right.numbered first.2
      (binary operator first.1 second.1, second.2)
  | call negate callee arguments =>
      let inside := listNumbered met arguments
      (call negate callee inside.1, inside.2)
  | node => (node, met)

/-- Number the field selectors of several trees in order. -/
def listNumbered (met : List String) : List Node → List Node × List String
  | [] => ([], met)
  | node :: nodes =>
      let first := node.numbered met
      let rest := listNumbered first.2 nodes
      (first.1 :: rest.1, rest.2)

end

/-- The paths of the field selectors of a tree, as often as they occur. -/
def namedPaths (node : Node) : List String :=
  node.origins.filterMap Origin.path?

theorem fieldPaths_eq_foldl_meet (node : Node) : node.fieldPaths = node.namedPaths.foldl meet [] := by
  rw [fieldPaths_eq, namedPaths, eraseDups_eq_foldl_meet]

theorem namedPaths_selector (origin : Origin) (subscripts : List Node) :
    (selector origin subscripts).namedPaths = origin.path?.toList ++ subscripts.flatMap namedPaths := by
  rw [namedPaths, origins, selectors, List.map_cons, listSelectors_origins, ← List.singleton_append,
    List.filterMap_append, List.filterMap_flatMap]
  cases found : origin.path? <;> simp [found] <;> rfl

theorem namedPaths_binary (operator : Operator) (left right : Node) :
    (binary operator left right).namedPaths = left.namedPaths ++ right.namedPaths := by
  simp only [namedPaths, origins, selectors, List.map_append, List.filterMap_append]

theorem namedPaths_call (negate : Bool) (callee : Callee) (arguments : List Node) :
    (call negate callee arguments).namedPaths = arguments.flatMap namedPaths := by
  rw [namedPaths, origins, selectors, listSelectors_origins, List.filterMap_flatMap]
  rfl

omit [RegexLibrary] in
/-- Numbering an origin gives the final position of its path. -/
theorem numbered_origin {origin : Origin}
    (grown : origin.path?.toList.foldl meet met <+: final) :
    origin.numbered met = (origin.withSlot final.idxOf, origin.path?.toList.foldl meet met) := by
  cases origin with
  | field path slot =>
      have position : met.idxOf path = final.idxOf path := idxOf_of_meet_prefix grown
      rw [Origin.numbered, Origin.withSlot, position]
      rfl
  | current => rfl
  | key => rfl
  | value => rfl

theorem listNumbered_eq {nodes : List Node}
    (each : ∀ node ∈ nodes, ∀ met, node.namedPaths.foldl meet met <+: final →
      node.numbered met = (node.withSlots final.idxOf, node.namedPaths.foldl meet met))
    (grown : (nodes.flatMap namedPaths).foldl meet met <+: final) :
    listNumbered met nodes =
      (listWithSlots final.idxOf nodes, (nodes.flatMap namedPaths).foldl meet met) := by
  induction nodes generalizing met with
  | nil => rfl
  | cons node nodes ih =>
      rcases List.forall_mem_cons.mp each with ⟨here, later⟩
      rw [List.flatMap_cons, List.foldl_append] at grown ⊢
      rw [listNumbered, here met (prefix_foldl_meet.trans grown), ih later grown, listWithSlots]

/-- Numbering a tree in one walk gives every field selector the position of its path
in the list with which the walk ends, even if the list grows later. -/
theorem numbered_eq {node : Node} (grown : node.namedPaths.foldl meet met <+: final) :
    node.numbered met = (node.withSlots final.idxOf, node.namedPaths.foldl meet met) := by
  induction node using treeInduction generalizing met with
  | selector origin subscripts ih =>
      rw [namedPaths_selector, List.foldl_append] at grown ⊢
      rw [numbered, numbered_origin (prefix_foldl_meet.trans grown),
        listNumbered_eq (fun subscript mem _ => ih subscript mem) grown, withSlots]
  | group negate inner ih =>
      rw [numbered, ih grown, withSlots]
      rfl
  | binary operator left right leftIH rightIH =>
      rw [namedPaths_binary, List.foldl_append] at grown ⊢
      rw [numbered, leftIH (prefix_foldl_meet.trans grown), rightIH grown, withSlots]
  | call negate callee arguments ih =>
      rw [namedPaths_call] at grown ⊢
      rw [numbered, listNumbered_eq (fun argument mem _ => ih argument mem) grown, withSlots]
  | nil => rfl
  | bool b => rfl
  | number x => rfl
  | text s => rfl

/-- The walk ends with the list of field paths, and the slots count this list. -/
theorem numbered_nil (node : Node) :
    node.numbered [] = (node.withSlots node.fieldPaths.idxOf, node.fieldPaths) := by
  rw [fieldPaths_eq_foldl_meet]
  exact numbered_eq List.prefix_rfl

end Node

end FieldRules
