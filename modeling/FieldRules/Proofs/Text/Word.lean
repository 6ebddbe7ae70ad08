import FieldRules.Proofs.Text.SelfContained
import FieldRules.Text.Word
import Mathlib.Tactic.FinCases
import Mathlib.Tactic.SplitIfs

/-!
# The characters of words and paths
-/

namespace FieldRules.Text

theorem isDigit_iff {c : Char} : c.isDigit = true ↔ 48 ≤ c.toNat ∧ c.toNat ≤ 57 := by
  simp only [Char.isDigit, Bool.and_eq_true, decide_eq_true_eq, UInt32.le_iff_toNat_le]
  exact Iff.rfl

theorem isAlpha_iff {c : Char} :
    c.isAlpha = true ↔ (65 ≤ c.toNat ∧ c.toNat ≤ 90) ∨ (97 ≤ c.toNat ∧ c.toNat ≤ 122) := by
  change (decide ('A'.val ≤ c.val ∧ c.val ≤ 'Z'.val) ||
    (decide ('a'.val ≤ c.val) && decide (c.val ≤ 'z'.val))) = true ↔ _
  simp only [Bool.or_eq_true, Bool.and_eq_true, decide_eq_true_eq, UInt32.le_iff_toNat_le]
  exact Iff.rfl

/-- Identifiers do not start with digits. -/
theorem isIdentifierStart_of_isDigit {c : Char} (digit : c.isDigit = true) :
    isIdentifierStart c = false := by
  have noUnderscore : c ≠ '_' := by
    rintro rfl
    cases digit
  rw [isDigit_iff] at digit
  rw [isIdentifierStart, Bool.or_eq_false_iff, decide_eq_false_iff_not, ← Bool.not_eq_true,
    isAlpha_iff]
  exact ⟨by omega, noUnderscore⟩

/-- Cutting at a separator loses nothing but the separators. -/
theorem mem_separate {separator c : Char} {text : List Char} (mem : c ∈ text)
    (other : c ≠ separator) : ∃ part ∈ separate separator text, c ∈ part := by
  induction text with
  | nil => cases mem
  | cons head text ih =>
      rw [separate]
      split_ifs with cut
      · rcases List.mem_cons.mp mem with rfl | mem
        · exact absurd cut other
        · obtain ⟨part, inParts, inPart⟩ := ih mem
          exact ⟨part, List.mem_cons_of_mem _ inParts, inPart⟩
      · cases parts : separate separator text with
        | nil =>
            rcases List.mem_cons.mp mem with rfl | mem
            · exact ⟨[c], by simp⟩
            · obtain ⟨part, inParts, -⟩ := ih mem
              rw [parts] at inParts
              cases inParts
        | cons part parts =>
            rcases List.mem_cons.mp mem with rfl | mem
            · exact ⟨c :: part, by simp⟩
            · obtain ⟨part', inParts, inPart⟩ := ih mem
              rw [parts] at inParts
              rcases List.mem_cons.mp inParts with rfl | inParts
              · exact ⟨head :: part', List.mem_cons_self, List.mem_cons_of_mem _ inPart⟩
              · exact ⟨part', List.mem_cons_of_mem _ inParts, inPart⟩

/-- A path consists of word characters and dots. -/
theorem isWordChar_of_isFieldPath {path : List Char} (valid : isFieldPath path = true) {c : Char}
    (mem : c ∈ path) : isWordChar c = true ∨ c = '.' := by
  by_cases dot : c = '.'
  · exact .inr dot
  · obtain ⟨part, inParts, inPart⟩ := mem_separate mem dot
    have word := List.all_eq_true.mp valid part inParts
    rw [isWord, Bool.and_eq_true] at word
    exact .inl (List.all_eq_true.mp word.2 c inPart)

theorem ne_nil_of_isFieldPath {path : List Char} (valid : isFieldPath path = true) :
    path ≠ [] := by
  rintro rfl
  cases valid

theorem marks_not_word : ∀ c ∈ marks, isWordChar c = false := by
  intro c mem
  fin_cases mem <;> rfl

/-- Words with dots between them hold no marks. -/
theorem SelfContained.ofWords {depth : Nat} {text : List Char}
    (words : ∀ c ∈ text, isWordChar c = true ∨ c = '.') : SelfContained depth text := by
  refine .ofPlain fun c mem mark => ?_
  rcases words c mem with word | rfl
  · rw [marks_not_word c mark] at word
    cases word
  · exact absurd mark (by decide)

/-- An identifier consists of word characters. -/
theorem isWordChar_of_isIdentifier {word : List Char} (identifier : isIdentifier word = true)
    {c : Char} (mem : c ∈ word) : isWordChar c = true := by
  cases word with
  | nil => cases mem
  | cons head word =>
      rw [isIdentifier, Bool.and_eq_true] at identifier
      rcases List.mem_cons.mp mem with rfl | mem
      · simp only [isIdentifierStart, isWordChar, Char.isAlphanum, Bool.or_eq_true] at identifier ⊢
        exact identifier.1.imp_left .inl
      · exact List.all_eq_true.mp identifier.2 c mem

/-- Word characters other than digits start identifiers. -/
theorem isIdentifierStart_iff {c : Char} :
    isIdentifierStart c = true ↔ isWordChar c = true ∧ c.isDigit = false := by
  constructor
  · intro start
    have identifier : isIdentifier [c] = true := by simp [isIdentifier, start]
    constructor
    · exact isWordChar_of_isIdentifier identifier List.mem_cons_self
    · rw [Bool.eq_false_iff]
      intro digit
      rw [isIdentifierStart_of_isDigit digit] at start
      cases start
  · rintro ⟨word, noDigit⟩
    simpa [isWordChar, isIdentifierStart, Char.isAlphanum, noDigit] using word

/-- An identifier is a word that does not start with a digit. -/
theorem isIdentifier_iff {text : List Char} :
    isIdentifier text = true ↔ isWord text = true ∧ text.head?.any Char.isDigit = false := by
  cases text with
  | nil => simp [isIdentifier, isWord]
  | cons c text =>
      rw [isIdentifier, isWord, Bool.and_eq_true, isIdentifierStart_iff]
      simp [and_right_comm]

end FieldRules.Text
