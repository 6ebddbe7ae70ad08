import FieldRules.Text.Blank

/-!
# Pieces of an argument list

An argument list is cut at its top-level commas: those outside every bracket
and every single-quoted run.  All three kinds of bracket count together, a
closing bracket too many is ignored, and a character behind an odd run of
backslashes is plain text.
-/

namespace FieldRules.Text

/-- Put text in front of the first slice. -/
def consSlice (text : List Char) : List (List Char) → List (List Char)
  | [] => [text]
  | slice :: slices => (text ++ slice) :: slices

/-- The slices between top-level commas, untrimmed.  `depth` counts the open
brackets; `quoted` says that a quoted run is open. -/
def slices : (depth : Nat) → (quoted : Bool) → List Char → List (List Char)
  | _, _, [] => [[]]
  | depth, quoted, c :: rest =>
      if c = '\\' then
        match rest with
        | [] => [[c]]
        | escaped :: rest => consSlice [c, escaped] (slices depth quoted rest)
      else if c = '\'' then
        consSlice [c] (slices depth (!quoted) rest)
      else if quoted then
        consSlice [c] (slices depth quoted rest)
      else if c = '(' || c = '[' || c = '{' then
        consSlice [c] (slices (depth + 1) quoted rest)
      else if c = ')' || c = ']' || c = '}' then
        consSlice [c] (slices (depth - 1) quoted rest)
      else if c = ',' && depth = 0 then
        [] :: slices depth quoted rest
      else
        consSlice [c] (slices depth quoted rest)

/-- The trimmed pieces of an argument list; blank text has none. -/
def pieces (text : List Char) : List (List Char) :=
  if isBlankText text then [] else (slices 0 false text).map trim

end FieldRules.Text
