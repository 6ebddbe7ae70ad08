import FieldRules.Datum.Basic
import FieldRules.Number.Shortest
import FieldRules.Text.Quoted

/-!
# Texts of data

Three texts show a datum: the plain text of a value, the text inside formatted
output, and the short description used in diagnostics.
-/

namespace FieldRules

/-- The word for a truth value. -/
def boolText (b : Bool) : String :=
  if b then "true" else "false"

/-- The plain text of a value. -/
def Value.toText : Value → String
  | .nil => "nil"
  | .bool b => boolText b
  | .number x => Number.toText x
  | .text s => s

/-- Join texts with a blank between them. -/
def joinBlank : List String → String :=
  " ".intercalate

namespace Datum

mutual

/-- The text of a datum inside formatted output: scalars plainly, sequences as
`[a b]`, mappings as `map[k:v]`. -/
def toText : Datum → String
  | .nil => "<nil>"
  | .bool b => boolText b
  | .number x => Number.toText x
  | .text s => s
  | .seq items => "[" ++ joinBlank (itemTexts items) ++ "]"
  | .map _ entries => "map[" ++ joinBlank (entryTexts entries) ++ "]"
  | .record => "\x7b...\x7d"

/-- The texts of the items of a sequence. -/
def itemTexts : List Datum → List String
  | [] => []
  | item :: items => item.toText :: itemTexts items

/-- The texts of the entries of a mapping. -/
def entryTexts : List (Key × Datum) → List String
  | [] => []
  | (key, value) :: entries => (keyText key ++ ":" ++ value.toText) :: entryTexts entries

/-- The text of a key. -/
def keyText : Key → String
  | .text s => s
  | .char c => .singleton c
  | .bool b => boolText b
  | .int n => Number.toText (Number.ofInt n)

end

/-- The description of a datum in diagnostics: its kind, and its content or
size. -/
def describe : Datum → String
  | .nil => "Nil"
  | .bool b => "Bool(" ++ boolText b ++ ")"
  | .number x => "Number(" ++ Number.toText x ++ ")"
  | .text s => "Str(" ++ Text.quoted s ++ ")"
  | .seq items => "Seq(len=" ++ toString items.length ++ ")"
  | .map _ entries => "Map(len=" ++ toString entries.length ++ ")"
  | .record => "Record"

end Datum

end FieldRules
