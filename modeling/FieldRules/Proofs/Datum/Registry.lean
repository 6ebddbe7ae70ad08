import FieldRules.Datum.Registry
import FieldRules.Proofs.Table
import FieldRules.Proofs.Text.Word

/-!
# Registries that come about by registration

A registry starts empty and changes by accepted registrations only.  So the
names it binds are identifiers that the language does not use itself, and each
of them is bound to the predicate of the last registration that was accepted
for it.
-/

namespace FieldRules.Registry

open FieldRules.Text

/-- The registries that registrations lead to. -/
inductive Reachable : Registry → Prop
  | empty : Reachable .empty
  | register {registry next : Registry} {name : String} {predicate : Predicate} {force : Bool}
      (reachable : Reachable registry)
      (registered : registry.register name predicate force = .ok next) : Reachable next

variable {registry next : Registry} {name : String} {predicate : Predicate} {force : Bool}

/-! ## One registration -/

/-- The names that are not found are those without an entry. -/
theorem find?_eq_none_iff : registry.find? name = none ↔ name ∉ registry.entries.map Prod.fst := by
  rw [find?, List.lookup_eq_none_iff, List.mem_map]
  simp only [bne_iff_ne, ne_eq, not_exists, not_and, eq_comm (a := name)]

/-- A name that was just bound is found; all others are found as before. -/
theorem find?_bind (registry : Registry) (name other : String) (predicate : Predicate) :
    (registry.bind name predicate).find? other =
      if other = name then some predicate else registry.find? other := by
  split_ifs with same
  · simp [find?, bind, same]
  · have differs : (other == name) = false := by simp [same]
    rw [find?, bind, List.lookup_cons, differs]
    exact lookup_filter_ne differs

/-- Binding a name keeps the other entries and adds one for the name. -/
theorem nodup_bind (distinct : (registry.entries.map Prod.fst).Nodup) (name : String)
    (predicate : Predicate) : ((registry.bind name predicate).entries.map Prod.fst).Nodup := by
  have others : (registry.entries.filter fun entry => entry.1 != name).Sublist registry.entries :=
    List.filter_sublist
  rw [bind, List.map_cons, List.nodup_cons]
  constructor
  · intro mem
    rcases List.mem_map.mp mem with ⟨entry, kept, same⟩
    exact absurd same (bne_iff_ne.mp (List.mem_filter.mp kept).2)
  · exact distinct.sublist (others.map Prod.fst)

/-- Names that can be bound are identifiers. -/
theorem isBindable_iff : isBindable name = true ↔ isIdentifier name.toList = true := by
  rw [isBindable, Bool.and_eq_true, Bool.not_eq_true', isIdentifier_iff]

/-- A registration is accepted if its name is an identifier that the language leaves
free, and if the name is free too or the registration is forced; then it binds the
name. -/
theorem register_eq_ok_iff :
    registry.register name predicate force = .ok next ↔
      (isIdentifier name.toList = true ∧ name ∉ builtinNames ∧ name ∉ constantNames ∧
        (force = true ∨ registry.find? name = none)) ∧ next = registry.bind name predicate := by
  have taken : (!force && registry.contains name) = false ↔
      force = true ∨ registry.find? name = none := by
    rw [contains, Bool.and_eq_false_iff, Bool.not_eq_false', Option.isSome_eq_false_iff,
      Option.isNone_iff_eq_none]
  have reserved : (builtinNames.contains name || constantNames.contains name) = false ↔
      name ∉ builtinNames ∧ name ∉ constantNames := by
    rw [Bool.or_eq_false_iff, ← Bool.not_eq_true, ← Bool.not_eq_true, List.contains_iff_mem,
      List.contains_iff_mem]
  rw [← isBindable_iff, ← taken, ← and_assoc (a := name ∉ builtinNames), ← reserved, register,
    eq_comm (a := next)]
  cases isBindable name with
  | false => simp
  | true =>
      cases builtinNames.contains name || constantNames.contains name with
      | true => simp
      | false => cases !force && registry.contains name <;> simp

/-- A registration binds the name if it is an identifier that the language leaves
free. -/
theorem eq_bind_of_register (registered : registry.register name predicate force = .ok next) :
    next = registry.bind name predicate ∧ isIdentifier name.toList = true ∧
      name ∉ builtinNames ∧ name ∉ constantNames := by
  rcases register_eq_ok_iff.mp registered with ⟨⟨identifier, noBuiltin, noConstant, -⟩, bound⟩
  exact ⟨bound, identifier, noBuiltin, noConstant⟩

/-- Bound names are identifiers that the language leaves free. -/
theorem Reachable.free_of_find? (reachable : Reachable registry)
    (found : registry.find? name = some predicate) :
    isIdentifier name.toList = true ∧ name ∉ builtinNames ∧ name ∉ constantNames := by
  induction reachable generalizing predicate with
  | empty => cases found
  | register _ registered ih =>
      obtain ⟨rfl, free⟩ := eq_bind_of_register registered
      rw [find?_bind] at found
      split_ifs at found with same
      · exact same ▸ free
      · exact ih found

/-! ## Sequences of registrations -/

/-- What is asked of a registry: to bind a name. -/
structure Request where
  name : String
  predicate : Predicate
  force : Bool

/-- The registry after a request; a refused one changes nothing. -/
def serve (registry : Registry) (request : Request) : Registry :=
  match registry.register request.name request.predicate request.force with
  | .ok next => next
  | .error _ => registry

/-- The registry after a sequence of requests. -/
def after (registry : Registry) (requests : List Request) : Registry :=
  requests.foldl serve registry

/-- The requests of a sequence that are accepted, in order. -/
def accepted (registry : Registry) : List Request → List Request
  | [] => []
  | request :: requests =>
      match registry.register request.name request.predicate request.force with
      | .ok next => request :: accepted next requests
      | .error _ => accepted registry requests

/-- The last of several requests for a name. -/
def last? (name : String) (requests : List Request) : Option Request :=
  requests.reverse.find? (·.name = name)

theorem last?_cons (request : Request) (requests : List Request) :
    last? name (request :: requests) =
      (last? name requests).or (if request.name = name then some request else none) := by
  rw [last?, List.reverse_cons, List.find?_append, last?]
  by_cases same : request.name = name <;> simp [same]

variable {requests : List Request}

theorem last?_eq_none_iff : last? name requests = none ↔ ∀ request ∈ requests, request.name ≠ name := by
  simp [last?]

theorem serve_eq_of_ok {request : Request}
    (registered : registry.register request.name request.predicate request.force = .ok next) :
    registry.serve request = next := by
  rw [serve, registered]

theorem serve_eq_of_error {request : Request} {error : RegistrationError}
    (refused : registry.register request.name request.predicate request.force = .error error) :
    registry.serve request = registry := by
  rw [serve, refused]

/-- The last request is served after the others. -/
theorem after_append_singleton (registry : Registry) (requests : List Request) (request : Request) :
    registry.after (requests ++ [request]) = (registry.after requests).serve request := by
  rw [after, List.foldl_append]
  rfl

/-- A registry after a sequence of requests is reachable, if it was before. -/
theorem Reachable.after (reachable : Reachable registry) : Reachable (registry.after requests) := by
  induction requests generalizing registry with
  | nil => exact reachable
  | cons request requests ih =>
      apply ih
      cases registered : registry.register request.name request.predicate request.force with
      | ok next => exact serve_eq_of_ok registered ▸ .register reachable registered
      | error error => exact (serve_eq_of_error registered).symm ▸ reachable

/-- No name has two entries. -/
theorem Reachable.nodup (reachable : Reachable registry) :
    (registry.entries.map Prod.fst).Nodup := by
  induction reachable with
  | empty => exact .nil
  | register _ registered ih =>
      rw [(eq_bind_of_register registered).1]
      exact nodup_bind ih _ _

/-- After a sequence of requests, a name is bound as the last request for it that was
accepted says, or as before if none was. -/
theorem find?_after (registry : Registry) (requests : List Request) (name : String) :
    (registry.after requests).find? name =
      ((last? name (accepted registry requests)).map Request.predicate).or
        (registry.find? name) := by
  induction requests generalizing registry with
  | nil => rfl
  | cons request requests ih =>
      have step : registry.after (request :: requests) =
          (registry.serve request).after requests := rfl
      rw [step, ih, accepted]
      cases registered : registry.register request.name request.predicate request.force with
      | error error => rw [serve_eq_of_error registered]
      | ok next =>
          rw [serve_eq_of_ok registered, last?_cons, (eq_bind_of_register registered).1,
            find?_bind]
          cases last? name (accepted (registry.bind request.name request.predicate) requests) with
          | some later => rfl
          | none =>
              by_cases same : request.name = name
              · simp [same]
              · simp [same, Ne.symm same]

/-- Names have an entry if a request for them was accepted. -/
theorem mem_names_after_iff :
    name ∈ (empty.after requests).entries.map Prod.fst ↔
      ∃ request ∈ accepted .empty requests, request.name = name := by
  rw [← not_iff_not, ← find?_eq_none_iff, find?_after, Option.or_eq_none_iff,
    Option.map_eq_none_iff, last?_eq_none_iff]
  constructor
  · rintro ⟨never, -⟩ ⟨request, mem, same⟩
    exact never request mem same
  · intro never
    constructor
    · intro request mem same
      exact never ⟨request, mem, same⟩
    · rfl

end FieldRules.Registry
