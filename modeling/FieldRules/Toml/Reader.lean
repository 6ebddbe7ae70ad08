import FieldRules.Toml.Lexical
import FieldRules.Toml.Scalar
import FieldRules.Toml.Table

/-!
# Reading TOML

The grammar of TOML documents.  Inline tables may extend over several lines and
end with a comma, like arrays.  Values nest at most 80 deep.
-/

namespace FieldRules.Toml

mutual

/-- Read a value; `depth` counts the levels that may still be opened. -/
def readValue (depth : Nat) : (steps : Nat) → List Char → Option (Value × List Char)
  | 0, _ => none
  | _ + 1, [] => none
  | steps + 1, c :: rest =>
      if c = '"' || c = '\'' then (readString c rest).map fun (s, after) => (.text s, after)
      else if c = '[' then
        match depth with
        | 0 => none
        | depth + 1 =>
            (readItems depth steps rest).map fun (items, after) => (.array items, after)
      else if c = '{' then
        match depth with
        | 0 => none
        | depth + 1 => do
            let (entries, after) ← readEntries depth steps rest
            some (← tableOf entries, after)
      else readScalar (c :: rest)

/-- Read the items of an array up to its closing bracket. -/
def readItems (depth : Nat) : (steps : Nat) → List Char → Option (List Value × List Char)
  | 0, _ => none
  | steps + 1, input => do
      match ← skipFiller input with
      | ']' :: after => some ([], after)
      | input => do
          let (item, rest) ← readValue depth steps input
          match ← skipFiller rest with
          | ',' :: rest => do
              let (items, after) ← readItems depth steps rest
              some (item :: items, after)
          | ']' :: after => some ([item], after)
          | _ => none

/-- Read the keys and values of an inline table up to its closing brace. -/
def readEntries (depth : Nat) :
    (steps : Nat) → List Char → Option (List (List String × Value) × List Char)
  | 0, _ => none
  | steps + 1, input => do
      match ← skipFiller input with
      | '}' :: after => some ([], after)
      | input => do
          let (entry, rest) ← readEntry depth steps input
          match ← skipFiller rest with
          | ',' :: rest => do
              let (entries, after) ← readEntries depth steps rest
              some (entry :: entries, after)
          | '}' :: after => some ([entry], after)
          | _ => none

/-- Read a key, an equals sign and a value. -/
def readEntry (depth : Nat) :
    (steps : Nat) → List Char → Option ((List String × Value) × List Char)
  | 0, _ => none
  | steps + 1, input => do
      let (key, rest) ← readKey (input.length + 1) input
      match skipSpace rest with
      | '=' :: rest => do
          let (value, after) ← readValue depth steps (skipSpace rest)
          some ((key, value), after)
      | _ => none

end

/-- How deep values may nest. -/
def maxDepth : Nat := 80

/-- Read a header behind its first bracket, with the rest of its line. -/
def readHeader (input : List Char) : Option (Header × List Char) :=
  match input with
  | '[' :: rest => do
      let (path, rest) ← readKey (rest.length + 1) (skipSpace rest)
      match skipSpace rest with
      | ']' :: ']' :: rest => some (.element path, ← skipLineEnd rest)
      | _ => none
  | rest => do
      let (path, rest) ← readKey (rest.length + 1) (skipSpace rest)
      match skipSpace rest with
      | ']' :: rest => some (.table path, ← skipLineEnd rest)
      | _ => none

/-- Read the lines of a document: the keys and values up to the first header, and
the sections from there on. -/
def readLines :
    (steps : Nat) → List Char → Option (List (List String × Value) × List Section)
  | 0, _ => none
  | steps + 1, input => do
      match ← skipFiller input with
      | [] => some ([], [])
      | '[' :: rest => do
          let (header, rest) ← readHeader rest
          let (entries, sections) ← readLines steps rest
          some ([], ⟨header, entries⟩ :: sections)
      | input => do
          let (entry, rest) ← readEntry maxDepth (3 * input.length + 3) input
          let rest ← skipLineEnd rest
          let (entries, sections) ← readLines steps rest
          some (entry :: entries, sections)

/-- A text without a byte order mark in front of it. -/
def stripMark : List Char → List Char
  | '\ufeff' :: rest => rest
  | text => text

/-- Read a whole text as a TOML document, a table. -/
def ofText? (text : String) : Option Value := do
  let characters := stripMark text.toList
  let (entries, sections) ← readLines (characters.length + 1) characters
  documentOf entries sections

end FieldRules.Toml
