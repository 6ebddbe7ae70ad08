import FieldRules.Text.CodePoint

/-!
# Blank characters and layout

Two notions of space occur in annotations.  *Layout* separates the tokens of an
expression and is the four ASCII characters space, tab, carriage return and
line feed.  *Blank* is every character with the Unicode property `White_Space`;
it decides where an operand may end and what trimming removes.
-/

namespace FieldRules.Text

/-! ## Character classes -/

/-- Layout is a space, a tab, a carriage return or a line feed. -/
def isLayout (c : Char) : Bool :=
  c = ' ' || c = '\t' || c = '\r' || c = '\n'

/-- The code points with the Unicode property `White_Space`, as inclusive
ranges in ascending order. -/
def blankRanges : CodeRanges :=
  [(0x09, 0x0D), (0x20, 0x20), (0x85, 0x85), (0xA0, 0xA0), (0x1680, 0x1680),
    (0x2000, 0x200A), (0x2028, 0x2029), (0x202F, 0x202F), (0x205F, 0x205F),
    (0x3000, 0x3000)]

/-- A character is blank when its code point lies in `blankRanges`. -/
def isBlank (c : Char) : Bool :=
  blankRanges.holds c

/-- Layout is blank. -/
theorem isBlank_of_isLayout {c : Char} (layout : isLayout c = true) : isBlank c = true := by
  simp only [isLayout, Bool.or_eq_true, decide_eq_true_eq] at layout
  rcases layout with ((rfl | rfl) | rfl) | rfl <;> decide

/-! ## Skipping and trimming -/

/-- Drop the layout in front of a text. -/
def skipLayout (text : List Char) : List Char :=
  text.dropWhile isLayout

/-- Drop the blank characters in front of a text. -/
def trimStart (text : List Char) : List Char :=
  text.dropWhile isBlank

/-- Drop the blank characters at the end of a text. -/
def trimEnd (text : List Char) : List Char :=
  (text.reverse.dropWhile isBlank).reverse

/-- Drop the blank characters at both ends of a text. -/
def trim (text : List Char) : List Char :=
  trimEnd (trimStart text)

/-- A text of blank characters only. -/
def isBlankText (text : List Char) : Bool :=
  text.all isBlank

end FieldRules.Text
