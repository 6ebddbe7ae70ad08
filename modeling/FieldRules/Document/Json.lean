import FieldRules.Eval.Scope
import FieldRules.Number.Numeral

/-!
# JSON documents

A document is kept as it is written, numbers as exact decimal numerals and
members in the order of the text.  As a datum, numbers are rounded, and of
several members with one name the last one counts.  An expression over a
document sees the whole of it as `$`, and walks the members of its objects.
-/

namespace FieldRules

/-- A JSON value. -/
inductive Json where
  | null
  | bool (b : Bool)
  | number (numeral : Number.Numeral)
  | text (s : String)
  | array (items : List Json)
  | object (members : List (String × Json))

namespace Json

instance : Inhabited Json := ⟨.null⟩

/-- The member of an object with a given name; the last one counts. -/
def member? (name : String) : Json → Option Json
  | object members => (members.reverse).lookup name
  | _ => none

/-- Walk from a document through the members that a path names, if each of them
is there. -/
def walk? (document : Json) (path : String) : Option Json :=
  (Text.separate '.' path.toList).foldlM (fun json name => json.member? (.ofList name)) document

mutual

/-- A JSON value as a datum. -/
def datum : Json → Datum
  | null => .nil
  | bool b => .bool b
  | number numeral => .number numeral.toFloat
  | text s => .text s
  | array items => .seq (itemData items)
  | object members => .ofEntries .text (memberData members)

/-- The items of an array as data. -/
def itemData : List Json → List Datum
  | [] => []
  | item :: items => item.datum :: itemData items

/-- The members of an object as entries. -/
def memberData : List (String × Json) → List (Key × Datum)
  | [] => []
  | (name, value) :: members => (.text name, value.datum) :: memberData members

end

/-- The scope of a document. -/
def scope (document : Json) : Scope :=
  .ofFields document.datum fun path => ((document.walk? path).map datum).getD .nil

end Json

end FieldRules
