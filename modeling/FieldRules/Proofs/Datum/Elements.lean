import FieldRules.Datum.Basic
import FieldRules.Document.Json
import FieldRules.Proofs.Number.Exact
import FieldRules.Proofs.Table
import Mathlib.Data.String.Basic

/-!
# The elements of collections and their keys

A collection stores its values under keys: a sequence under positions, a mapping
under keys of one kind, each once.  Going through it shows the datum of each key,
and looking a datum up makes a key of it again.  The way there and back ends at the
same key unless the key is an integer that no double is equal to.
-/

namespace FieldRules

variable {kind : KeyKind} {key other third : Key} {value : Datum} {entries : List (Key × Datum)}

/-! ## Keys of one kind are ordered -/

theorem Key.before_irrefl (key : Key) : key.before key = false := by
  cases key with
  | bool b => cases b <;> rfl
  | _ => simp [Key.before]

theorem KeyKind.before_trans (held : kind.holds key = true) (otherHeld : kind.holds other = true)
    (thirdHeld : kind.holds third = true) (first : key.before other = true)
    (second : other.before third = true) : key.before third = true := by
  cases kind <;> cases key <;> cases other <;> cases third <;>
    simp only [KeyKind.holds, Bool.false_eq_true] at held otherHeld thirdHeld <;>
    simp only [Key.before, decide_eq_true_eq] at first second ⊢
  · exact lt_trans first second
  · exact lt_trans first second
  · simp_all
  · exact lt_trans first second

theorem KeyKind.before_of_not_before (held : kind.holds key = true)
    (otherHeld : kind.holds other = true) (different : key ≠ other)
    (notBefore : ¬ key.before other = true) : other.before key = true := by
  cases kind <;> cases key <;> cases other <;>
    simp only [KeyKind.holds, Bool.false_eq_true] at held otherHeld <;>
    simp only [Key.before, decide_eq_true_eq, not_lt] at notBefore ⊢
  · exact lt_of_le_of_ne notBefore fun same => different (congrArg Key.text same.symm)
  · exact lt_of_le_of_ne notBefore fun same => different (congrArg Key.char same.symm)
  · rename_i b c
    cases b <;> cases c <;> simp_all
  · exact lt_of_le_of_ne notBefore fun same => different (congrArg Key.int same.symm)

/-! ## Mappings hold each key once -/

/-- Entries with keys of a kind in ascending order. -/
structure Ascending (kind : KeyKind) (entries : List (Key × Datum)) : Prop where
  held : ∀ entry ∈ entries, kind.holds entry.1 = true
  sorted : entries.Pairwise fun entry later => entry.1.before later.1 = true

theorem Ascending.nil : Ascending kind [] where
  held := List.forall_mem_nil _
  sorted := .nil

/-- Different places of ascending entries have different keys. -/
theorem Ascending.nodup (ascending : Ascending kind entries) :
    (entries.map Prod.fst).Nodup := by
  rw [List.nodup_iff_pairwise_ne, List.pairwise_map]
  apply ascending.sorted.imp
  intro entry later before same
  rw [same, Key.before_irrefl] at before
  cases before

theorem Datum.mem_insertEntry {entry : Key × Datum} (mem : entry ∈ insertEntry key value entries) :
    entry = (key, value) ∨ entry ∈ entries := by
  induction entries with
  | nil => exact .inl (List.mem_singleton.mp mem)
  | cons first rest ih =>
      rw [insertEntry] at mem
      split_ifs at mem
      · rcases List.mem_cons.mp mem with here | later
        · exact .inl here
        · exact .inr (List.mem_cons_of_mem _ later)
      · exact List.mem_cons.mp mem
      · rcases List.mem_cons.mp mem with rfl | later
        · exact .inr List.mem_cons_self
        · exact (ih later).imp_right (List.mem_cons_of_mem _)

/-- Putting an entry in keeps the others in ascending order. -/
theorem Ascending.insertEntry (ascending : Ascending kind entries)
    (held : kind.holds key = true) (value : Datum) :
    Ascending kind (Datum.insertEntry key value entries) where
  held := by
    intro entry mem
    rcases Datum.mem_insertEntry mem with rfl | mem
    · exact held
    · exact ascending.held entry mem
  sorted := by
    induction entries with
    | nil => exact List.pairwise_singleton _ _
    | cons first rest ih =>
        rcases List.forall_mem_cons.mp ascending.held with ⟨firstHeld, restHeld⟩
        rcases List.pairwise_cons.mp ascending.sorted with ⟨below, restSorted⟩
        rw [Datum.insertEntry]
        split_ifs with same before
        · subst same
          exact List.pairwise_cons.mpr ⟨below, restSorted⟩
        · apply List.pairwise_cons.mpr
          constructor
          · intro entry mem
            rcases List.mem_cons.mp mem with rfl | later
            · exact before
            · exact KeyKind.before_trans held firstHeld (restHeld entry later) before
                (below entry later)
          · exact ascending.sorted
        · apply List.pairwise_cons.mpr
          constructor
          · intro entry mem
            rcases Datum.mem_insertEntry mem with rfl | later
            · exact KeyKind.before_of_not_before held firstHeld same before
            · exact below entry later
          · exact ih ⟨restHeld, restSorted⟩

namespace Datum

/-- A mapping holds keys of its kind, each once. -/
def WellKeyed : Datum → Prop
  | .map kind entries =>
      (entries.map Prod.fst).Nodup ∧ ∀ entry ∈ entries, kind.holds entry.1 = true
  | _ => True

/-- Entries in any order, with keys of the kind, make up such a mapping. -/
theorem wellKeyed_ofEntries (held : ∀ entry ∈ entries, kind.holds entry.1 = true) :
    (ofEntries kind entries).WellKeyed := by
  have ascending (sorted : List (Key × Datum)) (before : Ascending kind sorted) :
      Ascending kind
        (entries.foldl (fun sorted entry => Datum.insertEntry entry.1 entry.2 sorted) sorted) := by
    induction entries generalizing sorted with
    | nil => exact before
    | cons entry entries ih =>
        rcases List.forall_mem_cons.mp held with ⟨first, rest⟩
        exact ih rest _ (before.insertEntry first entry.2)
  have all := ascending [] .nil
  exact ⟨all.nodup, all.held⟩

end Datum

/-- The members of a JSON object have texts as keys. -/
theorem Json.holds_of_mem_memberData {members : List (String × Json)} {entry : Key × Datum}
    (mem : entry ∈ memberData members) : KeyKind.text.holds entry.1 = true := by
  induction members with
  | nil => cases mem
  | cons first members ih =>
      rw [memberData] at mem
      rcases List.mem_cons.mp mem with rfl | later
      · rfl
      · exact ih later

/-- JSON objects are such mappings. -/
theorem Json.wellKeyed_datum (json : Json) : json.datum.WellKeyed := by
  cases json with
  | object members =>
      rw [datum]
      exact Datum.wellKeyed_ofEntries fun _ mem => holds_of_mem_memberData mem
  | _ => simp only [datum, Datum.WellKeyed]

/-! ## Keys as data and data as keys -/

/-- A key is exact unless it is an integer that no double is equal to. -/
def Key.IsExact : Key → Prop
  | .int n => Number.IsExact n
  | _ => True

/-- A key of a kind is made of its datum again exactly if it is exact. -/
theorem KeyKind.key?_datum_iff (held : kind.holds key = true) :
    kind.key? key.datum = some key ↔ key.IsExact := by
  cases kind <;> cases key <;> simp only [KeyKind.holds, Bool.false_eq_true] at held
  case int.int least greatest n =>
    rw [Bool.and_eq_true, decide_eq_true_eq, decide_eq_true_eq] at held
    rw [Key.IsExact, Number.isExact_iff, Key.datum, KeyKind.key?]
    cases whole : Number.whole? (Number.ofInt n) with
    | none => simp
    | some m =>
        constructor
        · intro found
          simp only at found
          split_ifs at found
          cases found
          rfl
        · intro same
          cases same
          simp only
          rw [if_pos held]
  all_goals simp [Key.IsExact, Key.datum, KeyKind.key?]

namespace Datum

/-- Sequences and mappings are collections. -/
def isCollection : Datum → Bool
  | .seq _ => true
  | .map _ _ => true
  | _ => false

/-- A collection stores a value under a key: a sequence stores its items under their
positions, a mapping the values of its entries. -/
inductive Stores : (collection : Datum) → Key → (value : Datum) → Prop
  | item {items : List Datum} {index : Nat} {item : Datum} (at_index : items[index]? = some item) :
      Stores (.seq items) (.int index) item
  | entry {kind : KeyKind} {entries : List (Key × Datum)} {key : Key} {value : Datum}
      (mem : (key, value) ∈ entries) : Stores (.map kind entries) key value

variable {collection : Datum} {elements : List (Datum × Datum)}

/-- What is visited is what is stored, with the data of the keys. -/
theorem mem_elements_iff (listed : collection.elements? = some elements) {key value : Datum} :
    (key, value) ∈ elements ↔ ∃ place : Key, collection.Stores place value ∧ place.datum = key := by
  cases collection with
  | seq items =>
      cases listed
      rw [List.mem_mapIdx]
      constructor
      · rintro ⟨index, inside, same⟩
        cases same
        exact ⟨.int index, .item (List.getElem?_eq_getElem inside), rfl⟩
      · rintro ⟨place, stores, rfl⟩
        cases stores with
        | item at_index =>
            rcases List.getElem?_eq_some_iff.mp at_index with ⟨inside, rfl⟩
            exact ⟨_, inside, rfl⟩
  | map kind entries =>
      cases listed
      rw [List.mem_map]
      constructor
      · rintro ⟨entry, mem, same⟩
        cases same
        exact ⟨entry.1, .entry mem, rfl⟩
      · rintro ⟨place, stores, rfl⟩
        cases stores with
        | entry mem => exact ⟨_, mem, rfl⟩
  | _ => cases listed

/-- What holds of all that is stored holds of all that is visited. -/
theorem forall_mem_elements_iff (listed : collection.elements? = some elements)
    {holds : Datum × Datum → Prop} :
    (∀ visited ∈ elements, holds visited) ↔
      ∀ key value, collection.Stores key value → holds (key.datum, value) := by
  constructor
  · intro all key value stores
    exact all _ ((mem_elements_iff listed).mpr ⟨key, stores, rfl⟩)
  · rintro all ⟨key, value⟩ mem
    rcases (mem_elements_iff listed).mp mem with ⟨place, stores, rfl⟩
    exact all place value stores

/-- Collections, and nothing else, have elements. -/
theorem isSome_elements? (collection : Datum) :
    collection.elements?.isSome = collection.isCollection := by
  cases collection <;> rfl

/-- Under the datum of an exact key, a collection finds the value that it stores
there. -/
theorem index_datum (wellKeyed : collection.WellKeyed) (stores : collection.Stores key value)
    (exact : key.IsExact) : collection.index key.datum = value := by
  cases stores with
  | item at_index =>
      have truncated := (Number.whole?_ofInt (Number.fits_of_isExact exact)).2
      rw [index, Key.datum, element?, truncated]
      simp only [at_index, Option.getD_some]
  | entry mem =>
      rcases wellKeyed with ⟨distinct, held⟩
      have found := (lookup_eq_some_iff_mem distinct).mpr mem
      rw [index, element?, lookup, (KeyKind.key?_datum_iff (held _ mem)).mpr exact]
      simp only [Option.bind_some, found, Option.getD_some]

end Datum

end FieldRules
