import FieldRules.Number.Binary

/-!
# Data

A datum is what an expression sees of the world: a scalar, a sequence, a
mapping, or a record that cannot be looked into.  Mappings have keys of one
kind; their entries are listed in the order in which they are visited.
-/

namespace FieldRules

/-! ## Keys -/

/-- A key of a mapping. -/
inductive Key where
  | text (s : String)
  | char (c : Char)
  | bool (b : Bool)
  | int (n : Int)
  deriving Repr, DecidableEq

/-- The kinds of keys a mapping can have; integer keys lie between two bounds. -/
inductive KeyKind where
  | text
  | char
  | bool
  | int (least greatest : Int)
  deriving Repr, DecidableEq

/-- Signed integer keys of a number of bits. -/
def KeyKind.signed (bits : Nat) : KeyKind :=
  .int (-(Nat.pow 2 (bits - 1) : Nat)) (((Nat.pow 2 (bits - 1) : Nat) : Int) - 1)

/-- Unsigned integer keys of a number of bits. -/
def KeyKind.unsigned (bits : Nat) : KeyKind :=
  .int 0 (((Nat.pow 2 bits : Nat) : Int) - 1)

/-- The kind a key belongs to. -/
def KeyKind.holds : KeyKind → Key → Bool
  | .text, .text _ => true
  | .char, .char _ => true
  | .bool, .bool _ => true
  | .int least greatest, .int n => least ≤ n && n ≤ greatest
  | _, _ => false

/-- Whether a key comes before another: numbers by value, `false` before
`true`, characters and texts by code points. -/
def Key.before : Key → Key → Bool
  | .text s, .text t => s < t
  | .char c, .char d => c < d
  | .bool b, .bool c => !b && c
  | .int m, .int n => m < n
  | _, _ => false

/-! ## Data -/

/-- A datum. -/
inductive Datum where
  | nil
  | bool (b : Bool)
  | number (x : Float)
  | text (s : String)
  | seq (items : List Datum)
  | map (kind : KeyKind) (entries : List (Key × Datum))
  | record

instance : Inhabited Datum := ⟨.nil⟩

/-- The datum of a key: integers become the nearest number, characters a text
of length one. -/
def Key.datum : Key → Datum
  | .text s => .text s
  | .char c => .text (.singleton c)
  | .bool b => .bool b
  | .int n => .number (Number.ofInt n)

/-- The key of a kind that a datum addresses, if it is of a fitting type. -/
def KeyKind.key? : KeyKind → Datum → Option Key
  | .text, .text s => some (.text s)
  | .char, .text s =>
      match s.toList with
      | [c] => some (.char c)
      | _ => none
  | .bool, .bool b => some (.bool b)
  | .int least greatest, .number x =>
      match Number.whole? x with
      | some n => if least ≤ n ∧ n ≤ greatest then some (.int n) else none
      | none => none
  | _, _ => none

namespace Datum

/-! ## Accessors -/

/-- Whether a datum is nil. -/
def isNil : Datum → Bool
  | .nil => true
  | _ => false

/-- The truth value of a boolean datum. -/
def bool? : Datum → Option Bool
  | .bool b => some b
  | _ => none

/-- The number of a numeric datum. -/
def number? : Datum → Option Float
  | .number x => some x
  | _ => none

/-- The text of a textual datum. -/
def text? : Datum → Option String
  | .text s => some s
  | _ => none

/-! ## Collections -/

/-- Put an entry into ascending order among others; an entry with the same key
is replaced. -/
def insertEntry (key : Key) (value : Datum) : List (Key × Datum) → List (Key × Datum)
  | [] => [(key, value)]
  | (key', value') :: rest =>
      if key = key' then (key, value) :: rest
      else if key.before key' then (key, value) :: (key', value') :: rest
      else (key', value') :: insertEntry key value rest

/-- A mapping from entries in any order; of several entries with one key the
last one counts. -/
def ofEntries (kind : KeyKind) (entries : List (Key × Datum)) : Datum :=
  .map kind (entries.foldl (fun sorted entry => insertEntry entry.1 entry.2 sorted) [])

/-- The value that a mapping of the given kind stores under a datum. -/
def lookup (kind : KeyKind) (entries : List (Key × Datum)) (key : Datum) : Option Datum :=
  (kind.key? key).bind fun key => List.lookup key entries

/-- The keys and values that iteration over a collection visits: the positions
and items of a sequence, the entries of a mapping. -/
def elements? : Datum → Option (List (Datum × Datum))
  | .seq items => some (items.mapIdx fun index item => (.number (Number.ofNat index), item))
  | .map _ entries => some (entries.map fun entry => (entry.1.datum, entry.2))
  | _ => none

/-- The element of a collection that a key addresses: the integer part of a
number counts the items of a sequence, and mappings look their key up. -/
def element? : Datum → (key : Datum) → Option Datum
  | .seq items, .number x =>
      match Number.truncate? x with
      | some (.ofNat index) => items[index]?
      | _ => none
  | .map kind entries, key => lookup kind entries key
  | _, _ => none

/-- `target[key]`, nil when nothing is there. -/
def index (target key : Datum) : Datum :=
  (target.element? key).getD .nil

/-- The number of items or entries of a collection, or of characters of a
text. -/
def size? : Datum → Option Nat
  | .text s => some s.length
  | .seq items => some items.length
  | .map _ entries => some entries.length
  | _ => none

end Datum

/-! ## Values -/

/-- A result as it is handed out: a scalar. -/
inductive Value where
  | nil
  | bool (b : Bool)
  | number (x : Float)
  | text (s : String)
  deriving DecidableEq

/-- The value of a datum; collections and records have no scalar form. -/
def Datum.value : Datum → Value
  | .bool b => .bool b
  | .number x => .number x
  | .text s => .text s
  | _ => .nil

/-- A value as a datum. -/
def Value.datum : Value → Datum
  | .nil => .nil
  | .bool b => .bool b
  | .number x => .number x
  | .text s => .text s

/-- Reading a value back from its datum changes nothing. -/
@[simp]
theorem Value.value_datum (value : Value) : value.datum.value = value := by
  cases value <;> rfl

/-- Whether a datum is a given value; numbers are compared as numbers. -/
def Datum.equals : Datum → Value → Bool
  | .nil, .nil => true
  | .bool b, .bool c => b == c
  | .number x, .number y => x == y
  | .text s, .text t => s == t
  | _, _ => false

/-- Numbers are truthy when they are not zero, texts when they are not empty,
booleans as they are; nothing else is truthy. -/
def Datum.truthy : Datum → Bool
  | .bool b => b
  | .number x => x != 0
  | .text s => s != ""
  | _ => false

/-- The truth of a value is that of its datum. -/
def Value.truthy (value : Value) : Bool :=
  value.datum.truthy

end FieldRules
