/-!
# Patterns

The patterns of `regexp` are regular expressions.  A library outside of this one
reads and matches them: it says which texts denote a regular expression and
whether one matches in a string.  Whatever reads or evaluates expressions takes the
library as a parameter, and what is proved about it holds for every library.

A pattern is a text together with the regular expression that it denotes.  The
expression is determined by the text, so patterns are equal when their texts are.
-/

namespace FieldRules

/-! ## Libraries -/

/-- A library of regular expressions. -/
class RegexLibrary where
  /-- A regular expression that has been read. -/
  Regex : Type
  /-- The regular expression that a text denotes, if it denotes one. -/
  ofText? : String → Option Regex
  /-- Whether a regular expression matches somewhere in a string. -/
  matchesIn : Regex → String → Bool

namespace RegexLibrary

/-- A library that knows the texts of a table only, each with its test for a match. -/
abbrev ofTable (table : List (String × (String → Bool))) : RegexLibrary where
  Regex := String → Bool
  ofText? text := table.lookup text
  matchesIn regex := regex

/-- A library without regular expressions, for expressions without patterns. -/
abbrev empty : RegexLibrary := ofTable []

end RegexLibrary

/-! ## Patterns -/

variable [RegexLibrary]

/-- A text that denotes a regular expression. -/
structure Pattern where
  text : String
  regex : RegexLibrary.Regex
  reads : RegexLibrary.ofText? text = some regex

namespace Pattern

/-- The pattern with a given text, if the text denotes one. -/
def ofText? (text : String) : Option Pattern :=
  match reads : RegexLibrary.ofText? text with
  | some regex => some ⟨text, regex, reads⟩
  | none => none

/-- Patterns with the same text are equal. -/
theorem eq_of_text_eq {left right : Pattern} (same : left.text = right.text) : left = right := by
  obtain ⟨text, regex, reads⟩ := left
  obtain ⟨text', regex', reads'⟩ := right
  subst same
  obtain rfl : regex = regex' := Option.some.inj (reads.symm.trans reads')
  rfl

/-- A pattern is the one that its text denotes. -/
theorem ofText?_text (pattern : Pattern) : ofText? pattern.text = some pattern := by
  unfold ofText?
  split
  · exact congrArg some (eq_of_text_eq rfl)
  · rename_i unreadable
    rw [pattern.reads] at unreadable
    cases unreadable

/-- Whether a pattern matches somewhere in a string. -/
def matchesIn (pattern : Pattern) (subject : String) : Bool :=
  RegexLibrary.matchesIn pattern.regex subject

end Pattern

end FieldRules
