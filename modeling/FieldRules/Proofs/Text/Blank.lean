import FieldRules.Proofs.Text.Run
import FieldRules.Text.Blank
import Mathlib.Data.List.DropRight

/-!
# Space around a text

Layout and blank characters in front of and behind a text are skipped or trimmed
away, up to the first and from the last character that is neither.
-/

namespace FieldRules.Text

/-- A run of layout characters. -/
def IsGap (text : List Char) : Prop :=
  ∀ c ∈ text, isLayout c = true

theorem isGap_nil : IsGap [] := by
  simp [IsGap]

theorem IsGap.isBlank {text : List Char} (layout : IsGap text) : ∀ c ∈ text, isBlank c = true :=
  fun c mem => isBlank_of_isLayout (layout c mem)

/-- A text that starts and ends with characters that are not blank. -/
structure Trimmed (text : List Char) : Prop where
  head : ∃ c ∈ text.head?, isBlank c = false
  last : ∃ c ∈ text.getLast?, isBlank c = false

theorem Trimmed.ne_nil {text : List Char} (trimmed : Trimmed text) : text ≠ [] := by
  rintro rfl
  obtain ⟨c, mem, -⟩ := trimmed.head
  cases mem

theorem Trimmed.of_forall {text : List Char} (some : text ≠ [])
    (shown : ∀ c ∈ text, isBlank c = false) : Trimmed text where
  head := ⟨text.head some, List.head?_eq_some_head some, shown _ (List.head_mem some)⟩
  last := ⟨text.getLast some, List.getLast?_eq_some_getLast some, shown _ (List.getLast_mem some)⟩

theorem Trimmed.join {first second : List Char} (firstTrimmed : Trimmed first)
    (secondTrimmed : Trimmed second) (middle : List Char) :
    Trimmed (first ++ middle ++ second) where
  head := by
    obtain ⟨c, mem, shown⟩ := firstTrimmed.head
    exact ⟨c, by simp [List.head?_append, Option.mem_def.mp mem], shown⟩
  last := by
    obtain ⟨c, mem, shown⟩ := secondTrimmed.last
    exact ⟨c, by simp [List.getLast?_append, Option.mem_def.mp mem], shown⟩

theorem Trimmed.append {first second : List Char} (firstTrimmed : Trimmed first)
    (secondTrimmed : Trimmed second) : Trimmed (first ++ second) := by
  simpa using firstTrimmed.join secondTrimmed []

theorem Trimmed.enclosed {left right : Char} (leftShown : isBlank left = false)
    (rightShown : isBlank right = false) (content : List Char) :
    Trimmed (left :: content ++ [right]) where
  head := ⟨left, rfl, leftShown⟩
  last := ⟨right, List.getLast?_concat, rightShown⟩

theorem trimStart_append {before text : List Char} (blank : ∀ c ∈ before, isBlank c = true) :
    trimStart (before ++ text) = trimStart text :=
  List.dropWhile_append_of_pos blank

theorem trimEnd_append {text after : List Char} (blank : ∀ c ∈ after, isBlank c = true) :
    trimEnd (text ++ after) = trimEnd text := by
  have blank' : ∀ c ∈ after.reverse, isBlank c = true := by simpa using blank
  rw [trimEnd, List.reverse_append, List.dropWhile_append_of_pos blank', trimEnd]

theorem trimStart_eq_self {c : Char} {text : List Char} (mem : c ∈ text.head?)
    (shown : isBlank c = false) : trimStart text = text := by
  cases text with
  | nil => cases mem
  | cons head text =>
      obtain rfl : head = c := by simpa using mem
      exact List.dropWhile_cons_of_neg (by simp [shown])

theorem trimEnd_eq_self {c : Char} {text : List Char} (mem : c ∈ text.getLast?)
    (shown : isBlank c = false) : trimEnd text = text := by
  have first : c ∈ text.reverse.head? := by simpa using mem
  have same := trimStart_eq_self first shown
  rw [trimStart] at same
  rw [trimEnd, same, List.reverse_reverse]

theorem trim_eq_self {text : List Char} (trimmed : Trimmed text) : trim text = text := by
  obtain ⟨first, firstMem, firstShown⟩ := trimmed.head
  obtain ⟨last, lastMem, lastShown⟩ := trimmed.last
  rw [trim, trimStart_eq_self firstMem firstShown, trimEnd_eq_self lastMem lastShown]

/-- Blank characters on both sides of a text are trimmed away. -/
theorem trim_between {before text after : List Char} (blankBefore : ∀ c ∈ before, isBlank c = true)
    (blankAfter : ∀ c ∈ after, isBlank c = true) : trim (before ++ text ++ after) = trim text := by
  rw [trim, List.append_assoc, trimStart_append blankBefore, trimStart, List.dropWhile_append]
  split_ifs with blank
  · have nothing : trimStart text = [] := List.isEmpty_iff.mp blank
    rw [List.dropWhile_eq_nil_iff.mpr blankAfter, trim, nothing]
  · exact trimEnd_append blankAfter

theorem trim_surrounded {before text after : List Char} (trimmed : Trimmed text)
    (blankBefore : ∀ c ∈ before, isBlank c = true)
    (blankAfter : ∀ c ∈ after, isBlank c = true) : trim (before ++ text ++ after) = text :=
  (trim_between blankBefore blankAfter).trans (trim_eq_self trimmed)

/-- Trimming takes blank characters away at both ends. -/
theorem exists_trim (text : List Char) :
    ∃ before after, (∀ c ∈ before, isBlank c = true) ∧ (∀ c ∈ after, isBlank c = true) ∧
      text = before ++ trim text ++ after := by
  refine ⟨text.takeWhile isBlank, ((trimStart text).reverse.takeWhile isBlank).reverse,
    fun c mem => (List.mem_takeWhile_imp mem), fun c mem => ?_, ?_⟩
  · exact List.mem_takeWhile_imp (List.mem_reverse.mp mem)
  · rw [trim, trimEnd, List.append_assoc, ← List.reverse_append, List.takeWhile_append_dropWhile,
      List.reverse_reverse, trimStart, List.takeWhile_append_dropWhile]

/-- What is left by trimming starts and ends visibly. -/
theorem trimmed_trim {text : List Char} (some : trim text ≠ []) : Trimmed (trim text) where
  head := by
    obtain ⟨after, split⟩ : trim text <+: trimStart text := List.rdropWhile_prefix isBlank _
    have start : trimStart text ≠ [] := split ▸ List.append_ne_nil_of_left_ne_nil some after
    have same : (trimStart text).head? = (trim text).head? := by
      rw [← split, List.head?_append_of_ne_nil _ some]
    refine ⟨(trimStart text).head start, ?_, List.head_dropWhile_not isBlank start⟩
    rw [← same]
    exact List.head_mem_head? start
  last := by
    refine ⟨(trim text).getLast some, List.getLast?_eq_some_getLast some, ?_⟩
    exact Bool.eq_false_iff.mpr (List.rdropWhile_last_not isBlank (trimStart text) some)

/-- Text with a character that is not blank is not blank. -/
theorem isBlankText_eq_false {c : Char} {text : List Char} (mem : c ∈ text)
    (shown : isBlank c = false) : isBlankText text = false :=
  List.all_eq_false.mpr ⟨c, mem, by simp [shown]⟩

theorem Trimmed.exists_mem {text : List Char} (trimmed : Trimmed text) :
    ∃ c ∈ text, isBlank c = false := by
  obtain ⟨c, mem, shown⟩ := trimmed.head
  exact ⟨c, List.mem_of_head? mem, shown⟩

/-- Skipping layout stops at the first character that is none. -/
theorem skipLayout_append {gap text : List Char} (layout : IsGap gap)
    (stops : ∀ c ∈ text.head?, isLayout c = false) : skipLayout (gap ++ text) = text :=
  dropWhile_run layout stops

theorem isLayout_eq_false {c : Char} (shown : isBlank c = false) : isLayout c = false := by
  cases layout : isLayout c with
  | false => rfl
  | true => rw [isBlank_of_isLayout layout] at shown; cases shown

end FieldRules.Text
