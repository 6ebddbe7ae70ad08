import FieldRules.Number.Numeral
import FieldRules.Proofs.Text.Run
import Mathlib.Tactic.FinCases

/-!
# The texts of number literals

A number literal is spelled with an optional sign, digits, and optionally a
point with more digits behind it.  Whatever follows, unless it is a digit or a
point, the literal is read off the front of the text.
-/

namespace FieldRules.Number

/-- The parts of a text `[+-]? digits (. digits)?`; a point is written only with
digits behind it. -/
structure Literal where
  sign : List Char
  whole : List Char
  fraction : List Char
  sign_mem : sign ∈ [[], ['-'], ['+']]
  whole_ne_nil : whole ≠ []
  whole_digits : ∀ c ∈ whole, c.isDigit = true
  fraction_digits : ∀ c ∈ fraction, c.isDigit = true

namespace Literal

/-- The point and what is behind it. -/
def pointed (literal : Literal) : List Char :=
  if literal.fraction = [] then [] else '.' :: literal.fraction

/-- The text of a literal. -/
def text (literal : Literal) : List Char :=
  literal.sign ++ literal.whole ++ literal.pointed

/-- The number that a literal spells out. -/
def numeral (literal : Literal) : Numeral :=
  .ofParts (literal.sign = ['-']) literal.whole literal.fraction 0

end Literal

theorem spanDigits_append {digits rest : List Char} (all : ∀ c ∈ digits, c.isDigit = true)
    (stops : ∀ c ∈ rest.head?, c.isDigit = false) :
    spanDigits (digits ++ rest) = (digits, rest) := by
  rw [spanDigits, Text.takeWhile_run all stops, Text.dropWhile_run all stops]

theorem readSign_eq_self {c : Char} (noSign : c ∉ ['-', '+']) (rest : List Char) :
    readSign (c :: rest) = (false, c :: rest) := by
  simp only [List.mem_cons, List.not_mem_nil, or_false, not_or] at noSign
  unfold readSign
  split
  · rename_i same
    exact absurd (List.cons.inj same).1 noSign.1
  · rename_i same
    exact absurd (List.cons.inj same).1 noSign.2
  · rfl

theorem signs_not_digits : ∀ c ∈ ['-', '+'], c.isDigit = false := by
  intro c mem
  fin_cases mem <;> rfl

/-- A literal starts with a sign or a digit. -/
theorem readLiteral_eq_none {c : Char} (noDigit : c.isDigit = false) (noSign : c ∉ ['-', '+'])
    (rest : List Char) : readLiteral (c :: rest) = none := by
  simp only [readLiteral, readSign_eq_self noSign, spanDigits, List.takeWhile_cons, noDigit,
    Bool.false_eq_true, if_false]

/-- The first character of a literal is a sign or a digit. -/
theorem Literal.exists_head (literal : Literal) :
    ∃ c rest, literal.text = c :: rest ∧ (c.isDigit = true ∨ c ∈ ['-', '+']) := by
  obtain ⟨sign, whole, fraction, mem, some, digits, -⟩ := literal
  simp only [List.mem_cons, List.not_mem_nil, or_false] at mem
  rcases mem with rfl | rfl | rfl
  · cases whole with
    | nil => exact absurd rfl some
    | cons c whole => exact ⟨c, _, rfl, .inl (digits c List.mem_cons_self)⟩
  · exact ⟨'-', _, rfl, .inr (by simp)⟩
  · exact ⟨'+', _, rfl, .inr (by simp)⟩

/-- A sign is read off in front of a digit. -/
theorem readSign_append (literal : Literal) (rest : List Char) :
    readSign (literal.sign ++ literal.whole ++ rest) =
      (decide (literal.sign = ['-']), literal.whole ++ rest) := by
  obtain ⟨sign, whole, fraction, mem, some, digits, -⟩ := literal
  simp only [List.mem_cons, List.not_mem_nil, or_false] at mem
  rcases mem with rfl | rfl | rfl
  · cases whole with
    | nil => exact absurd rfl some
    | cons c whole =>
        refine readSign_eq_self (fun mem => ?_) _
        have digit := digits c List.mem_cons_self
        rw [signs_not_digits c mem] at digit
        cases digit
  · rfl
  · rfl

/-- A point with digits behind it is read off, and nothing else. -/
theorem readFraction_append (literal : Literal) {after : List Char}
    (stops : ∀ c ∈ after.head?, c.isDigit = false ∧ c ≠ '.') :
    readFraction (literal.pointed ++ after) = (literal.fraction, after) := by
  have noDigit : ∀ c ∈ after.head?, c.isDigit = false := fun c mem => (stops c mem).1
  by_cases empty : literal.fraction = []
  · rw [Literal.pointed, if_pos empty, empty, List.nil_append]
    unfold readFraction
    split
    · exact absurd rfl (stops '.' rfl).2
    · rfl
  · rw [Literal.pointed, if_neg empty, List.cons_append, readFraction,
      spanDigits_append literal.fraction_digits noDigit]
    cases fraction : literal.fraction with
    | nil => exact absurd fraction empty
    | cons c digits => rfl

/-- A literal is read back from its text. -/
theorem readLiteral_text (literal : Literal) {after : List Char}
    (stops : ∀ c ∈ after.head?, c.isDigit = false ∧ c ≠ '.') :
    readLiteral (literal.text ++ after) = some (literal.numeral, after) := by
  have noDigit : ∀ c ∈ (literal.pointed ++ after).head?, c.isDigit = false := by
    rw [Literal.pointed]
    split_ifs
    · exact fun c mem => (stops c mem).1
    · rintro c ⟨⟩
      rfl
  rw [Literal.text, List.append_assoc, readLiteral, readSign_append]
  simp only
  rw [spanDigits_append literal.whole_digits noDigit]
  cases whole : literal.whole with
  | nil => exact absurd whole literal.whole_ne_nil
  | cons c digits =>
      simp only
      rw [readFraction_append literal stops, Literal.numeral, whole]

/-! ## What is read is a literal -/

theorem spanDigits_fst_digits (text : List Char) : ∀ c ∈ (spanDigits text).1, c.isDigit = true :=
  fun _ mem => List.mem_takeWhile_imp mem

theorem spanDigits_append_eq (text : List Char) : (spanDigits text).1 ++ (spanDigits text).2 = text :=
  List.takeWhile_append_dropWhile

theorem readSign_eq (text : List Char) :
    ∃ sign ∈ [[], ['-'], ['+']], text = sign ++ (readSign text).2 ∧
      (readSign text).1 = decide (sign = ['-']) := by
  unfold readSign
  split
  · exact ⟨['-'], by simp, rfl, rfl⟩
  · exact ⟨['+'], by simp, rfl, rfl⟩
  · exact ⟨[], by simp, rfl, rfl⟩

theorem readFraction_eq (text : List Char) :
    (∀ c ∈ (readFraction text).1, c.isDigit = true) ∧
      text = (if (readFraction text).1 = [] then [] else '.' :: (readFraction text).1) ++
        (readFraction text).2 := by
  unfold readFraction
  split
  · rename_i rest
    have split := spanDigits_append_eq rest
    have digits := spanDigits_fst_digits rest
    split
    · exact ⟨List.forall_mem_nil _, rfl⟩
    · rename_i fraction after some spanned
      rw [spanned] at split digits
      refine ⟨digits, ?_⟩
      rw [if_neg (by simpa using some), ← split]
      rfl
  · exact ⟨List.forall_mem_nil _, rfl⟩

/-- Every text off which a literal is read starts with one. -/
theorem exists_literal {text after : List Char} {numeral : Numeral}
    (read : readLiteral text = some (numeral, after)) :
    ∃ literal : Literal, text = literal.text ++ after ∧ literal.numeral = numeral := by
  obtain ⟨sign, signMem, split, negative⟩ := readSign_eq text
  simp only [readLiteral] at read
  have digits := spanDigits_fst_digits (readSign text).2
  have unsigned := spanDigits_append_eq (readSign text).2
  split at read
  · cases read
  · rename_i whole rest some spanned
    rw [spanned] at digits unsigned
    obtain ⟨fractionDigits, pointed⟩ := readFraction_eq rest
    cases read
    refine ⟨⟨sign, whole, (readFraction rest).1, signMem, by simpa using some, digits,
      fractionDigits⟩, ?_, ?_⟩
    · rw [Literal.text, Literal.pointed, List.append_assoc, ← pointed, List.append_assoc, unsigned]
      exact split
    · rw [Literal.numeral, negative]

end FieldRules.Number
