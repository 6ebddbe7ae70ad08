/-!
# TOML values

The values of a TOML document.  Dates and times are kept as texts in their
normal form; nothing is calculated with them.
-/

namespace FieldRules.Toml

/-- A TOML value. -/
inductive Value where
  | text (s : String)
  | bool (b : Bool)
  | integer (n : Int)
  | float (x : Float)
  | date (text : String)
  | array (items : List Value)
  | table (members : List (String × Value))

instance : Inhabited Value := ⟨.table []⟩

/-- The name under which a date or time shows itself where a table is asked
for. -/
def dateMember : String := "$__toml_private_datetime"

/-- The members of a table; a date or time is a table of a single member. -/
def Value.members? : Value → Option (List (String × Value))
  | .table members => some members
  | .date s => some [(dateMember, .text s)]
  | _ => none

/-- The content of a text. -/
def Value.text? : Value → Option String
  | .text s => some s
  | _ => none

end FieldRules.Toml
