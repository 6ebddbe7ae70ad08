import FieldRules.Document.Json
import FieldRules.Text.Hex

/-!
# Reading JSON

The grammar of JSON texts, with two limits: values nest less than 128 deep, and
a number must not be too large for a double.  Every reader takes its part off
the front of a text; a step is spent on every value, item and member.
-/

namespace FieldRules.Json

open FieldRules.Number (Numeral)
open FieldRules.Text (hexValue? charOf?)

/-- Space between the parts of a JSON text. -/
def isSpace (c : Char) : Bool :=
  c = ' ' || c = '\t' || c = '\n' || c = '\r'

/-- Drop leading space. -/
def skipSpace (input : List Char) : List Char :=
  input.dropWhile isSpace

/-! ## Strings -/

/-- A unit of 16 bits written as four hexadecimal digits. -/
def readUnit : List Char → Option (Nat × List Char)
  | a :: b :: c :: d :: rest => do
      let a ← hexValue? a
      let b ← hexValue? b
      let c ← hexValue? c
      let d ← hexValue? d
      some (((a * 16 + b) * 16 + c) * 16 + d, rest)
  | _ => none

/-- The character behind `\u`: a unit, or a high and a low surrogate that belong
together. -/
def readUnicode (input : List Char) : Option (Char × List Char) := do
  let (high, rest) ← readUnit input
  if 0xD800 ≤ high && high < 0xDC00 then
    match rest with
    | '\\' :: 'u' :: rest => do
        let (low, rest) ← readUnit rest
        if 0xDC00 ≤ low && low < 0xE000 then
          some (← charOf? (0x10000 + (high - 0xD800) * 0x400 + (low - 0xDC00)), rest)
        else none
    | _ => none
  else some (← charOf? high, rest)

/-- The characters that one letter behind a backslash stands for. -/
def escapes : List (Char × Char) :=
  [('"', '"'), ('\\', '\\'), ('/', '/'), ('b', '\x08'), ('f', '\x0c'), ('n', '\n'), ('r', '\r'),
    ('t', '\t')]

/-- Read a string behind its opening quote; control characters must be escaped. -/
def readString : (steps : Nat) → List Char → Option (List Char × List Char)
  | 0, _ => none
  | _ + 1, [] => none
  | steps + 1, c :: rest =>
      if c = '"' then some ([], rest)
      else if c = '\\' then
        match rest with
        | [] => none
        | 'u' :: rest => do
            let (c, rest) ← readUnicode rest
            let (content, after) ← readString steps rest
            some (c :: content, after)
        | letter :: rest => do
            let c ← escapes.lookup letter
            let (content, after) ← readString steps rest
            some (c :: content, after)
      else if c.toNat < 0x20 then none
      else do
        let (content, after) ← readString steps rest
        some (c :: content, after)

/-! ## Numbers -/

/-- The whole part of a number: a zero alone, or digits that do not start with
one. -/
def readWhole (input : List Char) : Option (List Char × List Char) :=
  match Number.spanDigits input with
  | ([], _) => none
  | ('0' :: _ :: _, _) => none
  | found => some found

/-- The fraction of a number, if there is a point. -/
def readFraction : List Char → Option (List Char × List Char)
  | '.' :: rest =>
      match Number.spanDigits rest with
      | ([], _) => none
      | found => some found
  | input => some ([], input)

/-- The power of ten of a number, if there is one. -/
def readPower : List Char → Option (Int × List Char)
  | e :: rest =>
      if e = 'e' || e = 'E' then
        let (negative, digits) := Number.readSign rest
        match Number.spanDigits digits with
        | ([], _) => none
        | (digits, after) => some (Number.signed negative (Number.digitsValue digits), after)
      else some (0, e :: rest)
  | [] => some (0, [])

/-- Read a number that a double can hold. -/
def readNumber (input : List Char) : Option (Numeral × List Char) := do
  let (negative, unsigned) :=
    match input with
    | '-' :: rest => (true, rest)
    | input => (false, input)
  let (whole, rest) ← readWhole unsigned
  let (fraction, rest) ← readFraction rest
  let (power, after) ← readPower rest
  let numeral := Numeral.ofParts negative whole fraction power
  if numeral.toFloat.isFinite then some (numeral, after) else none

/-! ## Values -/

/-- Take a word off the front. -/
def readWord : (word input : List Char) → Option (List Char)
  | [], input => some input
  | _ :: _, [] => none
  | w :: word, c :: input => if w = c then readWord word input else none

mutual

/-- Read a value; `depth` counts the levels that may still be opened. -/
def readValue (depth : Nat) : (steps : Nat) → List Char → Option (Json × List Char)
  | 0, _ => none
  | steps + 1, input =>
      match skipSpace input with
      | [] => none
      | c :: rest =>
          if c = 'n' then (readWord "ull".toList rest).map (.null, ·)
          else if c = 't' then (readWord "rue".toList rest).map (.bool true, ·)
          else if c = 'f' then (readWord "alse".toList rest).map (.bool false, ·)
          else if c = '"' then
            (readString (rest.length + 1) rest).map fun (content, after) =>
              (.text (.ofList content), after)
          else if c = '[' then
            match depth with
            | 0 => none
            | depth + 1 =>
                match skipSpace rest with
                | ']' :: after => some (.array [], after)
                | _ => (readItems depth steps rest).map fun (items, after) => (.array items, after)
          else if c = '{' then
            match depth with
            | 0 => none
            | depth + 1 =>
                match skipSpace rest with
                | '}' :: after => some (.object [], after)
                | _ =>
                    (readMembers depth steps rest).map fun (members, after) =>
                      (.object members, after)
          else (readNumber (c :: rest)).map fun (numeral, after) => (.number numeral, after)

/-- Read the items of an array up to its closing bracket; there is at least one. -/
def readItems (depth : Nat) : (steps : Nat) → List Char → Option (List Json × List Char)
  | 0, _ => none
  | steps + 1, input => do
      let (item, rest) ← readValue depth steps input
      match skipSpace rest with
      | ',' :: rest => do
          let (items, after) ← readItems depth steps rest
          some (item :: items, after)
      | ']' :: after => some ([item], after)
      | _ => none

/-- Read the members of an object up to its closing brace; there is at least
one. -/
def readMembers (depth : Nat) :
    (steps : Nat) → List Char → Option (List (String × Json) × List Char)
  | 0, _ => none
  | steps + 1, input =>
      match skipSpace input with
      | '"' :: rest => do
          let (name, rest) ← readString (rest.length + 1) rest
          match skipSpace rest with
          | ':' :: rest => do
              let (value, rest) ← readValue depth steps rest
              match skipSpace rest with
              | ',' :: rest => do
                  let (members, after) ← readMembers depth steps rest
                  some ((.ofList name, value) :: members, after)
              | '}' :: after => some ([(.ofList name, value)], after)
              | _ => none
          | _ => none
      | _ => none

end

/-- How deep values may nest. -/
def maxDepth : Nat := 127

/-- Read a whole text as one JSON value. -/
def ofText? (input : String) : Option Json := do
  let characters := input.toList
  let (value, after) ← readValue maxDepth (2 * characters.length + 2) characters
  if (skipSpace after).isEmpty then some value else none

end FieldRules.Json
