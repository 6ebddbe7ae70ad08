/-!
# Words, identifiers and field paths

A word is a nonempty run of ASCII letters, digits and underscores; an
identifier is a word that does not start with a digit; a field path is a
sequence of words separated by dots.
-/

namespace FieldRules.Text

/-- ASCII letters, digits and the underscore make up words. -/
def isWordChar (c : Char) : Bool :=
  c.isAlphanum || c = '_'

/-- An identifier starts with a letter or an underscore. -/
def isIdentifierStart (c : Char) : Bool :=
  c.isAlpha || c = '_'

/-- A word is a nonempty run of word characters. -/
def isWord (text : List Char) : Bool :=
  !text.isEmpty && text.all isWordChar

/-- An identifier is a word whose first character is not a digit. -/
def isIdentifier : List Char → Bool
  | [] => false
  | c :: rest => isIdentifierStart c && rest.all isWordChar

/-- Cut a text at every occurrence of a separator; `n` occurrences give `n + 1`
parts. -/
def separate (separator : Char) : List Char → List (List Char)
  | [] => [[]]
  | c :: rest =>
      if c = separator then [] :: separate separator rest
      else
        match separate separator rest with
        | [] => [[c]]
        | part :: parts => (c :: part) :: parts

/-- A field path is a nonempty list of words separated by dots. -/
def isFieldPath (text : List Char) : Bool :=
  (separate '.' text).all isWord

end FieldRules.Text
