import FieldRules.Document.Json
import FieldRules.Proofs.Record.Path

/-!
# Documents and their data

Making a datum of a document keeps its members: the datum of an object finds under a
name what the object has as its last member of that name, and nothing else of a document
has members.  So walking the names of a path and making data commute, and where the walk
ends does not depend on which is done first.
-/

namespace FieldRules

/-! ## The last entry counts -/

namespace Datum

variable {entries sorted : List (Key × Datum)} {key other : Key} {value : Datum}

/-- To look a key up, an entry that is put in order may as well stand in front. -/
theorem lookup_insertEntry :
    (insertEntry key value entries).lookup other = ((key, value) :: entries).lookup other := by
  induction entries with
  | nil => rfl
  | cons first rest ih =>
      obtain ⟨key', value'⟩ := first
      rw [insertEntry]
      split_ifs with same before
      · subst same
        rw [List.lookup_cons, List.lookup_cons, List.lookup_cons]
        cases other == key <;> rfl
      · rfl
      · rw [List.lookup_cons, ih, List.lookup_cons, List.lookup_cons, List.lookup_cons]
        cases here : other == key' with
        | false => rfl
        | true =>
            have different : (other == key) = false := by
              rw [eq_of_beq here]
              exact beq_false_of_ne (Ne.symm same)
            rw [different]

theorem lookup_foldl_insertEntry :
    (entries.foldl (fun sorted entry => insertEntry entry.1 entry.2 sorted) sorted).lookup key =
      (entries.reverse ++ sorted).lookup key := by
  induction entries generalizing sorted with
  | nil => rfl
  | cons entry entries ih =>
      rw [List.foldl_cons, ih, List.reverse_cons, List.append_assoc, List.lookup_append,
        List.lookup_append, lookup_insertEntry]
      rfl

/-- A mapping finds the last of the entries with a key. -/
theorem element?_ofEntries {kind : KeyKind} {datum : Datum} (addressed : kind.key? datum = some key) :
    (ofEntries kind entries).element? datum = entries.reverse.lookup key := by
  rw [ofEntries, element?, lookup, addressed, Option.bind_some, lookup_foldl_insertEntry,
    List.append_nil]

end Datum

/-! ## Members -/

namespace Json

theorem memberData_eq_map (members : List (String × Json)) :
    memberData members = members.map fun member => (.text member.1, member.2.datum) := by
  induction members with
  | nil => rfl
  | cons member members ih => rw [memberData, ih, List.map_cons]

theorem lookup_memberData (members : List (String × Json)) (name : String) :
    (memberData members).lookup (.text name) = (members.lookup name).map datum := by
  induction members with
  | nil => rfl
  | cons member members ih =>
      obtain ⟨name', value⟩ := member
      rw [memberData, List.lookup_cons, List.lookup_cons, ih]
      have alike : (Key.text name == Key.text name') = (name == name') :=
        Bool.eq_iff_iff.mpr (by simp)
      rw [alike]
      cases name == name' <;> rfl

/-- The datum of a value has the data of its members under their names. -/
theorem element?_datum (json : Json) (name : String) :
    json.datum.element? (.text name) = (json.member? name).map datum := by
  cases json with
  | object members =>
      have addressed : KeyKind.text.key? (.text name) = some (.text name) := rfl
      rw [datum, Datum.element?_ofEntries addressed, memberData_eq_map, ← List.map_reverse,
        ← memberData_eq_map, lookup_memberData, member?]
  | _ => rfl

/-- A walk may go through the document or through its datum. -/
theorem walk?_datum (document : Json) (path : String) :
    Scope.walk? document.datum path = (document.walk? path).map datum := by
  rw [Scope.walk?, walk?]
  generalize Text.separate '.' path.toList = parts
  induction parts generalizing document with
  | nil => rfl
  | cons part parts ih =>
      rw [List.foldlM_cons, List.foldlM_cons, element?_datum]
      cases document.member? (.ofList part) with
      | none => rfl
      | some inner => exact ih inner

/-- The scope of a document is that of its datum. -/
theorem scope_eq_ofDocument (document : Json) : document.scope = .ofDocument document.datum := by
  simp only [scope, Scope.ofDocument, walk?_datum]

end Json

/-! ## Going down -/

namespace Datum

/-- Go from a datum down through keys, to nil where one is missing. -/
def descend (datum : Datum) (names : List String) : Datum :=
  names.foldl (fun inner name => inner.index (.text name)) datum

@[simp]
theorem index_nil (key : Datum) : Datum.nil.index key = .nil :=
  rfl

@[simp]
theorem descend_nil (names : List String) : Datum.nil.descend names = .nil := by
  induction names with
  | nil => rfl
  | cons name names ih => exact ih

theorem descend_cons (datum : Datum) (name : String) (names : List String) :
    datum.descend (name :: names) = (datum.index (.text name)).descend names :=
  rfl

theorem eq_nil_of_isNil {datum : Datum} (found : datum.isNil = true) : datum = .nil := by
  cases datum <;> first | rfl | cases found

/-- A walk that breaks off at a missing key is one that goes on from nil. -/
theorem foldlM_element?_getD (datum : Datum) (names : List String) :
    (names.foldlM (fun (inner : Datum) name => inner.element? (.text name)) datum).getD .nil =
      datum.descend names := by
  induction names generalizing datum with
  | nil => rfl
  | cons name names ih =>
      rw [List.foldlM_cons, descend_cons, index]
      cases datum.element? (.text name) with
      | none => exact (descend_nil names).symm
      | some inner => exact ih inner

end Datum

/-- A dotted path leads through its names. -/
theorem Json.field_dotted (document : Json) {names : List String} (some : names ≠ [])
    (words : AreWords names) :
    document.scope.field (dotted names) = document.datum.descend names := by
  have walked : Scope.walk? document.datum (dotted names) =
      names.foldlM (fun inner name => inner.element? (.text name)) document.datum := by
    rw [Scope.walk?, separate_dotted some words, List.foldlM_map]
    simp only [String.ofList_toList]
  calc
    document.scope.field (dotted names)
      = (Scope.walk? document.datum (dotted names)).getD .nil := by rw [scope_eq_ofDocument]; rfl
    _ = document.datum.descend names := by rw [walked, Datum.foldlM_element?_getD]

end FieldRules
