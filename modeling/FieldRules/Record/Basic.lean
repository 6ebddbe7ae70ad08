import FieldRules.Text.Word

/-!
# Record types

A record type describes its fields: each has a name, annotations under tags,
and possibly a record type of its own, whose fields then belong to it too.  A
catalog collects what record types describe.  Describing can also break off,
which leaves no fields at all.
-/

namespace FieldRules

/-- A record type, known by its name. -/
structure RecordType where
  name : String
  deriving Repr, DecidableEq

/-- The declaration of a field. -/
structure FieldSpec where
  name : String
  /-- Annotations by tag; each tag stands at most once. -/
  tags : List (String × String)
  /-- The record type of the field, unless the field is a plain one. -/
  nested : Option RecordType
  deriving Repr, DecidableEq

namespace FieldSpec

/-- A plain field without annotations. -/
def leaf (name : String) : FieldSpec :=
  ⟨name, [], none⟩

/-- A field that holds a record of a given type, without annotations. -/
def record (name : String) (target : RecordType) : FieldSpec :=
  ⟨name, [], some target⟩

/-- Put an annotation under a tag, in place of the one that is there. -/
def setTag (tag annotation : String) : List (String × String) → List (String × String)
  | [] => [(tag, annotation)]
  | (tag', annotation') :: tags =>
      if tag = tag' then (tag, annotation) :: tags
      else (tag', annotation') :: setTag tag annotation tags

/-- Annotate a field under a tag. -/
def tag (spec : FieldSpec) (tag annotation : String) : FieldSpec :=
  { spec with tags := setTag tag annotation spec.tags }

/-- The annotation of a field under a tag. -/
def tagged? (spec : FieldSpec) (tag : String) : Option String :=
  spec.tags.lookup tag

end FieldSpec

/-- What a record type says when it is asked for its fields. -/
inductive Description where
  | fields (specs : List FieldSpec)
  /-- The description broke off. -/
  | aborted
  deriving Repr, DecidableEq

/-- What record types describe; the first entry of a type counts. -/
structure Catalog where
  entries : List (RecordType × Description)
  deriving Repr

namespace Catalog

/-- No type describes anything. -/
def empty : Catalog := ⟨[]⟩

/-- The description of a type that the catalog lists. -/
def find? (catalog : Catalog) (type : RecordType) : Option Description :=
  catalog.entries.lookup type

/-- The description of a type; types that are not listed have no fields. -/
def describe (catalog : Catalog) (type : RecordType) : Description :=
  (catalog.find? type).getD (.fields [])

/-- Replace the description of a type. -/
def set (catalog : Catalog) (type : RecordType) (description : Description) : Catalog :=
  ⟨(type, description) :: catalog.entries.filter (·.1 ≠ type)⟩

/-- The listed types that do not occur in a list of types. -/
def outside (catalog : Catalog) (types : List RecordType) : List RecordType :=
  (catalog.entries.map (·.1)).filter fun type => !types.contains type

end Catalog

/-! ## Paths -/

/-- The path of a field: the names that lead to it, with points between them. -/
def dotted (names : List String) : String :=
  ".".intercalate names

/-- A path behind another one; behind the empty path it stands alone. -/
def joinPath (owner path : String) : String :=
  if owner = "" then path else owner ++ "." ++ path

end FieldRules
