import FieldRules.Text.Hex

/-!
# The lexical level of TOML

Line breaks, comments, strings and keys.  Every reader takes its part off the
front of a text.
-/

namespace FieldRules.Toml

open FieldRules.Text (hexNumber? charOf?)

/-! ## Space -/

/-- Space inside a line. -/
def isSpace (c : Char) : Bool :=
  c = ' ' || c = '\t'

/-- Drop leading space. -/
def skipSpace (input : List Char) : List Char :=
  input.dropWhile isSpace

/-- The characters that strings and comments may hold as they are: no control
characters other than the tab. -/
def isPlain (c : Char) : Bool :=
  c = '\t' || (0x20 ≤ c.toNat && c.toNat ≠ 0x7F)

/-- Take a line break off the front. -/
def readBreak : List Char → Option (List Char)
  | '\n' :: rest => some rest
  | '\r' :: '\n' :: rest => some rest
  | _ => none

/-- Drop a comment behind its `#`; it ends with the line. -/
def skipComment (input : List Char) : Option (List Char) :=
  let rest := input.dropWhile isPlain
  if rest.isEmpty || (readBreak rest).isSome then some rest else none

/-- Drop space, line breaks and comments. -/
def skipLines : (steps : Nat) → List Char → Option (List Char)
  | 0, _ => none
  | steps + 1, input =>
      match skipSpace input with
      | '#' :: rest => do skipLines steps (← skipComment rest)
      | rest =>
          match readBreak rest with
          | some rest => skipLines steps rest
          | none => some rest

/-- Drop all space, line breaks and comments in front of a text. -/
def skipFiller (input : List Char) : Option (List Char) :=
  skipLines (input.length + 1) input

/-- Drop the rest of a line: space and a comment, and the line break unless the
text ends. -/
def skipLineEnd (input : List Char) : Option (List Char) := do
  let rest ← (match skipSpace input with
    | '#' :: rest => skipComment rest
    | rest => some rest)
  if rest.isEmpty then some [] else readBreak rest

/-! ## Strings -/

/-- The characters that one letter behind a backslash stands for. -/
def escapes : List (Char × Char) :=
  [('b', '\x08'), ('t', '\t'), ('n', '\n'), ('f', '\x0c'), ('r', '\r'), ('e', '\x1b'),
    ('"', '"'), ('\\', '\\')]

/-- The numbers of hexadecimal digits behind the letters that introduce a code
point. -/
def codeLengths : List (Char × Nat) :=
  [('x', 2), ('u', 4), ('U', 8)]

/-- Read what stands behind a backslash. -/
def readEscape : List Char → Option (Char × List Char)
  | [] => none
  | letter :: rest =>
      match codeLengths.lookup letter with
      | some length =>
          let digits := rest.take length
          if digits.length = length then do
            let code ← hexNumber? digits
            some (← charOf? code, rest.drop length)
          else none
      | none => (escapes.lookup letter).map (·, rest)

/-- Read a string up to its closing quote on the same line; `escaped` tells
whether backslashes have a meaning. -/
def readLine (quote : Char) (escaped : Bool) :
    (steps : Nat) → List Char → Option (List Char × List Char)
  | 0, _ => none
  | _ + 1, [] => none
  | steps + 1, c :: rest =>
      if c = quote then some ([], rest)
      else if escaped && c = '\\' then do
        let (c, rest) ← readEscape rest
        let (content, after) ← readLine quote escaped steps rest
        some (c :: content, after)
      else if isPlain c then do
        let (content, after) ← readLine quote escaped steps rest
        some (c :: content, after)
      else none

/-- Drop space and line breaks. -/
def skipBlankLines : (steps : Nat) → List Char → List Char
  | 0, input => input
  | steps + 1, input =>
      match readBreak (skipSpace input) with
      | some rest => skipBlankLines steps rest
      | none => skipSpace input

/-- Drop space and line breaks behind a backslash at the end of a line; there has
to be a line break among them. -/
def skipFold (input : List Char) : Option (List Char) :=
  (readBreak (skipSpace input)).map fun rest => skipBlankLines (rest.length + 1) rest

/-- The length of a leading run of a character. -/
def runLength (c : Char) (input : List Char) : Nat :=
  (input.takeWhile (· = c)).length

/-- Read a string up to its three closing quotes.  Up to two quotes directly in
front of these belong to the string; line breaks become line feeds. -/
def readBlock (quote : Char) (escaped : Bool) :
    (steps : Nat) → List Char → Option (List Char × List Char)
  | 0, _ => none
  | _ + 1, [] => none
  | steps + 1, c :: rest =>
      let run := min (runLength quote (c :: rest)) 5
      if 3 ≤ run then some (List.replicate (run - 3) quote, (c :: rest).drop run)
      else if escaped && c = '\\' then
        match skipFold rest with
        | some rest => readBlock quote escaped steps rest
        | none => do
            let (c, rest) ← readEscape rest
            let (content, after) ← readBlock quote escaped steps rest
            some (c :: content, after)
      else
        match readBreak (c :: rest) with
        | some rest => do
            let (content, after) ← readBlock quote escaped steps rest
            some ('\n' :: content, after)
        | none =>
            if isPlain c then do
              let (content, after) ← readBlock quote escaped steps rest
              some (c :: content, after)
            else none

/-- Whether backslashes have a meaning in strings with a kind of quotes. -/
def isEscaped (quote : Char) : Bool :=
  quote = '"'

/-- Read a string behind its first quote.  Three quotes open a string of several
lines, of which a line break at the very beginning is no part. -/
def readString (quote : Char) (input : List Char) : Option (String × List Char) := do
  let (content, after) ← (
    if 2 ≤ runLength quote input then
      let opened := input.drop 2
      let body := (readBreak opened).getD opened
      readBlock quote (isEscaped quote) (body.length + 1) body
    else readLine quote (isEscaped quote) (input.length + 1) input)
  some (.ofList content, after)

/-! ## Keys -/

/-- The characters of keys without quotes. -/
def isBareKey (c : Char) : Bool :=
  c.isAlphanum || c = '_' || c = '-'

/-- Read one part of a key. -/
def readKeyPart : List Char → Option (String × List Char)
  | [] => none
  | c :: rest =>
      if c = '"' || c = '\'' then do
        let (content, after) ← readLine c (isEscaped c) (rest.length + 1) rest
        some (.ofList content, after)
      else if isBareKey c then
        some (.ofList ((c :: rest).takeWhile isBareKey), (c :: rest).dropWhile isBareKey)
      else none

/-- Read a key: parts with points between them. -/
def readKey : (steps : Nat) → List Char → Option (List String × List Char)
  | 0, _ => none
  | steps + 1, input => do
      let (part, rest) ← readKeyPart input
      match skipSpace rest with
      | '.' :: rest => do
          let (parts, after) ← readKey steps (skipSpace rest)
          some (part :: parts, after)
      | after => some ([part], after)

end FieldRules.Toml
