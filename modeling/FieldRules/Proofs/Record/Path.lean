import FieldRules.Proofs.Text.Word
import FieldRules.Record.Basic
import Mathlib.Data.List.Nodup

/-!
# Paths and names

The path of a field spells its names with points between them.  Names are words,
so the names can be cut out of the path again.
-/

namespace FieldRules

open FieldRules.Text

theorem separate_eq_splitOn (separator : Char) (text : List Char) :
    separate separator text = text.splitOn separator := by
  induction text with
  | nil => rfl
  | cons c text ih =>
      rw [separate, ih, List.splitOn_cons_eq_if_modifyHead]
      by_cases cut : c = separator
      · simp [cut]
      · cases parts : text.splitOn separator with
        | nil => exact absurd parts (List.splitOn_ne_nil separator text)
        | cons part parts => simp [cut]

/-- The names of a path. -/
def namesOf (path : String) : List String :=
  (separate '.' path.toList).map String.ofList

/-- The names of fields are words. -/
def AreWords (names : List String) : Prop :=
  ∀ name ∈ names, isWord name.toList = true

theorem isWordChar_of_isWord {word : List Char} (valid : isWord word = true) :
    ∀ c ∈ word, isWordChar c = true := by
  rw [isWord, Bool.and_eq_true] at valid
  exact List.all_eq_true.mp valid.2

/-- A path is cut at its points into the names that it was made of. -/
theorem separate_dotted {names : List String} (some : names ≠ []) (words : AreWords names) :
    separate '.' (dotted names).toList = names.map String.toList := by
  have apart : ∀ part ∈ names.map String.toList, '.' ∉ part := by
    intro part mem point
    obtain ⟨name, inNames, rfl⟩ := List.mem_map.mp mem
    have word := isWordChar_of_isWord (words name inNames) '.' point
    cases word
  rw [separate_eq_splitOn, dotted, String.toList_intercalate]
  exact List.splitOn_intercalate '.' apart (by simpa using some)

theorem namesOf_dotted {names : List String} (some : names ≠ []) (words : AreWords names) :
    namesOf (dotted names) = names := by
  rw [namesOf, separate_dotted some words, List.map_map]
  exact List.map_id'' (fun name => String.ofList_toList) names

theorem isFieldPath_dotted {names : List String} (some : names ≠ []) (words : AreWords names) :
    isFieldPath (dotted names).toList = true := by
  rw [isFieldPath, separate_dotted some words, List.all_map]
  exact List.all_eq_true.mpr words

/-- Different names make different paths. -/
theorem dotted_injective {names others : List String} (some : names ≠ []) (words : AreWords names)
    (othersSome : others ≠ []) (othersWords : AreWords others) (same : dotted names = dotted others) :
    names = others := by
  rw [← namesOf_dotted some words, same, namesOf_dotted othersSome othersWords]

/-! ## Positions of paths -/

variable {paths : List String} {path : String} {index : Nat}

theorem getElem?_of_idxOf? (found : paths.idxOf? path = some index) :
    paths[index]? = some path := by
  obtain ⟨bound, here, -⟩ := List.idxOf?_eq_some_iff.mp found
  rw [List.getElem?_eq_getElem bound, here]

/-- Where paths do not repeat, each is found at its own position. -/
theorem idxOf?_of_getElem? (distinct : paths.Nodup) (here : paths[index]? = some path) :
    paths.idxOf? path = some index := by
  obtain ⟨bound, here⟩ := List.getElem?_eq_some_iff.mp here
  refine List.idxOf?_eq_some_iff.mpr ⟨bound, here, fun earlier before same => ?_⟩
  have position : earlier = index := distinct.getElem_inj_iff.mp (same.trans here.symm)
  omega

end FieldRules
