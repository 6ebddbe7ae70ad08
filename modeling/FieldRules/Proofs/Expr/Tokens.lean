import FieldRules.Expr.Printer
import FieldRules.Expr.Token
import FieldRules.Proofs.Text.Run
import FieldRules.Proofs.Text.Word
import Mathlib.Tactic.FinCases
import Mathlib.Tactic.SplitIfs

/-!
# Reading tokens

Each token is read off the front of a text that starts with it, whatever follows,
as long as what follows cannot be taken for more of the token.  An operand is
followed by a terminator, which starts no token but an operator.
-/

namespace FieldRules.Expr

open FieldRules.Text

variable {text rest after : List Char} {c : Char}

/-! ## Terminators -/

/-- Word characters are not blank. -/
theorem isBlank_of_isWordChar (word : isWordChar c = true) : isBlank c = false := by
  have bounds : (48 ≤ c.toNat ∧ c.toNat ≤ 57) ∨ (65 ≤ c.toNat ∧ c.toNat ≤ 122) := by
    rw [isWordChar, Char.isAlphanum, Bool.or_eq_true, Bool.or_eq_true, isAlpha_iff, isDigit_iff,
      decide_eq_true_eq] at word
    rcases word with word | rfl
    · omega
    · decide
  simp only [isBlank, CodeRanges.holds, blankRanges, List.any_cons, List.any_nil, Bool.or_false,
    Bool.or_eq_false_iff, Bool.and_eq_false_iff, decide_eq_false_iff_not]
  omega

theorem operatorChars_not_word : ∀ c ∈ operatorChars, isWordChar c = false := by
  intro c mem
  fin_cases mem <;> rfl

/-- A terminator starts with a blank character or an operator. -/
theorem atTerminator_iff :
    atTerminator after = true ↔ ∀ c ∈ after.head?, isBlank c = true ∨ c ∈ operatorChars := by
  cases after <;> simp [atTerminator]

theorem head_ne_of_atTerminator (ends : atTerminator after = true) (shown : isBlank c = false)
    (noOperator : c ∉ operatorChars) : after.head? ≠ some c := by
  intro head
  rcases atTerminator_iff.mp ends c head with blank | operator
  · rw [shown] at blank
    cases blank
  · exact noOperator operator

theorem not_word_of_atTerminator (ends : atTerminator after = true) :
    ∀ c ∈ after.head?, isWordChar c = false := by
  intro c mem
  rcases atTerminator_iff.mp ends c mem with blank | operator
  · cases word : isWordChar c with
    | false => rfl
    | true => rw [isBlank_of_isWordChar word] at blank; cases blank
  · exact operatorChars_not_word c operator

theorem atTerminator_of_gap {gap : List Char} (layout : ∀ c ∈ gap, isLayout c = true)
    (ends : atTerminator after = true) : atTerminator (gap ++ after) = true := by
  cases gap with
  | nil => exact ends
  | cons c gap =>
      simp [atTerminator, isBlank_of_isLayout (layout c List.mem_cons_self)]

/-! ## Symbols and operators -/

@[simp]
theorem readSymbol_append (symbol rest : List Char) :
    readSymbol symbol (symbol ++ rest) = some rest := by
  induction symbol with
  | nil => rfl
  | cons c symbol ih => simpa [readSymbol] using ih

theorem eq_append_of_readSymbol {symbol : List Char} (read : readSymbol symbol text = some rest) :
    text = symbol ++ rest := by
  induction symbol generalizing text with
  | nil => exact Option.some_inj.mp read
  | cons c symbol ih =>
      cases text with
      | nil => cases read
      | cons head text =>
          rw [readSymbol] at read
          split_ifs at read with same
          rw [same, ih read]
          rfl

theorem readSymbol_eq_none (symbol : List Char) (other : text.head? ≠ some c) :
    readSymbol (c :: symbol) text = none := by
  cases text with
  | nil => rfl
  | cons head text =>
      rw [readSymbol, if_neg]
      rintro rfl
      exact other rfl

/-- An operator is read off unless an equals sign behind it makes it longer. -/
theorem readOperator_symbol (operator : Operator) (ends : rest.head? ≠ some '=') :
    readOperator (operator.symbol ++ rest) = some (operator, rest) := by
  cases rest with
  | nil => cases operator <;> rfl
  | cons c rest =>
      have noEquals : ¬ '=' = c := by
        rintro rfl
        exact ends rfl
      cases operator <;>
        simp [readOperator, operatorOrder, Operator.symbol, readSymbol, noEquals]

theorem eq_append_of_readOperator {operator : Operator}
    (read : readOperator text = some (operator, rest)) : text = operator.symbol ++ rest := by
  obtain ⟨tried, -, taken⟩ := List.exists_of_findSome?_eq_some read
  obtain ⟨after, symbolRead, same⟩ := Option.map_eq_some_iff.mp taken
  cases same
  exact eq_append_of_readSymbol symbolRead

theorem symbol_head (operator : Operator) :
    ∃ c symbol, operator.symbol = c :: symbol ∧ c ∈ operatorChars ∧ isLayout c = false := by
  cases operator <;> exact ⟨_, _, rfl, by decide, by decide⟩

theorem atTerminator_symbol (operator : Operator) :
    atTerminator (operator.symbol ++ rest) = true := by
  obtain ⟨c, symbol, split, mem, -⟩ := symbol_head operator
  simp [split, atTerminator, mem]

/-! ## Words -/

theorem readKeyword_append (word : List Char) (ends : atTerminator after = true) :
    readKeyword word (word ++ after) = some after := by
  simp [readKeyword, ends]

theorem eq_append_of_readKeyword {word : List Char} (read : readKeyword word text = some rest) :
    text = word ++ rest :=
  eq_append_of_readSymbol (Option.filter_eq_some_iff.mp read).1

theorem readKeyword_eq_none (word : List Char) (other : text.head? ≠ some c) :
    readKeyword (c :: word) text = none := by
  rw [readKeyword, readSymbol_eq_none word other]
  rfl

theorem readIdentifier_append {name : List Char} (identifier : isIdentifier name = true)
    (ends : ∀ c ∈ rest.head?, isWordChar c = false) :
    readIdentifier (name ++ rest) = some (name, rest) := by
  cases name with
  | nil => cases identifier
  | cons c name =>
      rw [isIdentifier, Bool.and_eq_true] at identifier
      obtain ⟨start, word⟩ := identifier
      have word : ∀ c ∈ name, isWordChar c = true := List.all_eq_true.mp word
      rw [List.cons_append, readIdentifier, if_pos start, takeWhile_run word ends,
        dropWhile_run word ends]

theorem eq_append_of_readIdentifier {name : List Char}
    (read : readIdentifier text = some (name, rest)) :
    isIdentifier name = true ∧ text = name ++ rest := by
  cases text with
  | nil => cases read
  | cons c text =>
      rw [readIdentifier] at read
      split_ifs at read with start
      cases read
      refine ⟨?_, ?_⟩
      · rw [isIdentifier, start, Bool.true_and, List.all_eq_true]
        exact fun c mem => List.mem_takeWhile_imp mem
      · rw [List.cons_append, List.takeWhile_append_dropWhile]

theorem readIdentifier_eq_none (other : ∀ c ∈ text.head?, isIdentifierStart c = false) :
    readIdentifier text = none := by
  cases text with
  | nil => rfl
  | cons c text => simp [readIdentifier, other c rfl]

/-! ## Exclamation marks -/

/-- Exclamation marks are counted in front of any other character. -/
theorem readBangs_replicate (bangs : Nat) (other : rest.head? ≠ some '!') :
    readBangs (List.replicate bangs '!' ++ rest) = (bangs, rest) := by
  have marks : ∀ c ∈ List.replicate bangs '!', decide (c = '!') = true := by
    intro c mem
    exact decide_eq_true (List.eq_of_mem_replicate mem)
  have stops : ∀ c ∈ rest.head?, decide (c = '!') = false := by
    intro c mem
    exact decide_eq_false fun same => other (same ▸ mem)
  rw [readBangs, takeWhile_run marks stops, dropWhile_run marks stops, List.length_replicate]

/-- Exclamation marks are all that is read off. -/
theorem replicate_append_readBangs (text : List Char) :
    List.replicate (readBangs text).1 '!' ++ (readBangs text).2 = text := by
  have marks : ∀ c ∈ text.takeWhile (· = '!'), c = '!' := by
    intro c mem
    simpa using List.mem_takeWhile_imp mem
  rw [readBangs, ← List.eq_replicate_of_mem marks, List.takeWhile_append_dropWhile]

theorem readBangs_of_head_ne (other : text.head? ≠ some '!') : readBangs text = (0, text) :=
  readBangs_replicate 0 other

theorem negation_eq_replicate (negate : Bool) :
    negation negate = List.replicate (if negate then 1 else 0) '!' := by
  cases negate <;> rfl

@[simp]
theorem negates_negation (negate : Bool) : negates (if negate then 1 else 0) = negate := by
  cases negate <;> rfl

end FieldRules.Expr
