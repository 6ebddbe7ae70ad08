import FieldRules.Toml.Value

/-!
# Tables under construction

A TOML document defines its tables piece by piece.  How a table came about
decides what may still be added to it: headers may open tables that were only
implied by longer headers, dotted keys may go on with tables of dotted keys, and
nothing is defined twice.
-/

namespace FieldRules.Toml

/-- How a table came about. -/
inductive Origin where
  /-- A header names a table inside it. -/
  | implied
  /-- A dotted key leads through it. -/
  | dotted
  /-- It has a header of its own. -/
  | declared
  deriving Repr, DecidableEq

/-- A value, or a table or an array of tables that can grow.  Of an array of
tables only the last one grows. -/
inductive Node where
  | value (value : Value)
  | table (origin : Origin) (members : List (String × Node))
  | tables (earlier : List (List (String × Node))) (last : List (String × Node))

instance : Inhabited Node := ⟨.table .implied []⟩

/-- The members of a table under construction. -/
abbrev Members := List (String × Node)

mutual

/-- What has been constructed, as a value. -/
def Node.finish : Node → Value
  | .value value => value
  | .table _ members => .table (finishMembers members)
  | .tables earlier last => .array (finishTables earlier ++ [.table (finishMembers last)])

/-- The members of a table as values. -/
def finishMembers : List (String × Node) → List (String × Value)
  | [] => []
  | (name, node) :: members => (name, node.finish) :: finishMembers members

/-- Several tables as values. -/
def finishTables : List (List (String × Node)) → List Value
  | [] => []
  | members :: tables => .table (finishMembers members) :: finishTables tables

end

/-- Change the member with a name, or add it. -/
def alter (name : String) (change : Option Node → Option Node) : Members → Option Members
  | [] => (change none).map fun node => [(name, node)]
  | (name', node) :: members =>
      if name = name' then (change (some node)).map fun node => (name, node) :: members
      else (alter name change members).map ((name', node) :: ·)

/-- Change the member at the end of a path.  `origin` tells what leads there, a
header or a dotted key; tables that are missing on the way come about like that.
A dotted key does not enter tables with a header, and its last part adds to a
table of dotted keys only; `here` is the origin of the table it has come to. -/
def alterAt (origin : Origin) (change : Option Node → Option Node) :
    (path : List String) → (here : Origin) → Members → Option Members
  | [], _, _ => none
  | [name], here, members =>
      if origin = .dotted ∧ here ≠ .dotted then none else alter name change members
  | name :: path, _, members =>
      alter name (fun
        | none => (alterAt origin change path origin []).map (.table origin)
        | some (.table inner members) =>
            if origin = .dotted ∧ inner = .declared then none
            else (alterAt origin change path inner members).map (.table inner)
        | some (.tables earlier last) =>
            (alterAt origin change path .declared last).map (.tables earlier)
        | some (.value _) => none) members

/-- A value where nothing has been defined. -/
def define (value : Value) : Option Node → Option Node
  | none => some (.value value)
  | some _ => none

/-- Add a value under a key. -/
def addEntry (members : Members) (entry : List String × Value) : Option Members :=
  match entry.1 with
  | [name] => alter name (define entry.2) members
  | path => alterAt .dotted (define entry.2) path .declared members

/-- Add values under keys. -/
def addEntries (members : Members) (entries : List (List String × Value)) : Option Members :=
  entries.foldlM addEntry members

/-- The table of a list of keys and values. -/
def tableOf (entries : List (List String × Value)) : Option Value :=
  (addEntries [] entries).map fun members => .table (finishMembers members)

/-! ## Sections -/

/-- What a section of a document defines: the table at a path, or one more table
of the array at a path. -/
inductive Header where
  | table (path : List String)
  | element (path : List String)
  deriving Repr, DecidableEq

/-- A header with the keys and values behind it. -/
structure Section where
  header : Header
  entries : List (List String × Value)

/-- Define the table at the end of a header. -/
def openTable (entries : List (List String × Value)) : Option Node → Option Node
  | none => (addEntries [] entries).map (.table .declared)
  | some (.table .implied members) => (addEntries members entries).map (.table .declared)
  | some _ => none

/-- Add a table to the array at the end of a header. -/
def openElement (entries : List (List String × Value)) : Option Node → Option Node
  | none => (addEntries [] entries).map (.tables [])
  | some (.tables earlier last) => (addEntries [] entries).map (.tables (earlier ++ [last]))
  | some _ => none

/-- Add a section to the members of a document. -/
def addSection (members : Members) (part : Section) : Option Members :=
  match part.header with
  | .table path => alterAt .implied (openTable part.entries) path .declared members
  | .element path => alterAt .implied (openElement part.entries) path .declared members

/-- The table of a document: keys and values in front of all headers, then
sections. -/
def documentOf (entries : List (List String × Value)) (sections : List Section) :
    Option Value := do
  let members ← addEntries [] entries
  let members ← sections.foldlM addSection members
  some (.table (finishMembers members))

end FieldRules.Toml
