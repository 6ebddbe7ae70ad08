/-!
# Delimited text

`scanPaired left right` cuts a delimited text off the front of its input.  A
delimiter counts unless it is escaped, that is, unless it stands right behind
an odd run of backslashes.  Reading a run of backslashes in pairs makes this a
local rule: a backslash together with the character behind it is one unit.

An escaped delimiter loses its backslash in the content; every other backslash
is kept for whoever reads the content.  Two different delimiters nest, and a
single-quoted run between them is copied as it stands, so that delimiters
inside quotes never count.
-/

namespace FieldRules.Text

/-- The content up to the delimiter that closes the text, and what follows it.

`level` counts the pairs opened inside and not yet closed; `quoted` says that
the scan is inside a single-quoted run. -/
def scanContent (left right : Char) :
    (level : Nat) → (quoted : Bool) → List Char → Option (List Char × List Char)
  | _, _, [] => none
  | level, quoted, c :: rest =>
      if c = '\\' then
        match rest with
        | [] => none
        | escaped :: rest =>
            let unit :=
              if !quoted && escaped ≠ '\\' && (escaped = left || escaped = right) then [escaped]
              else [c, escaped]
            (scanContent left right level quoted rest).map fun (content, after) =>
              (unit ++ content, after)
      else if quoted then
        (scanContent left right level (c ≠ '\'') rest).map fun (content, after) =>
          (c :: content, after)
      else if c = right && level = 0 then
        some ([], rest)
      else
        let opens := left ≠ right && c = left
        let closes := left ≠ right && c = right && !opens
        let quotes := left ≠ right && c = '\'' && !opens && !closes
        let level := if opens then level + 1 else if closes then level - 1 else level
        (scanContent left right level quotes rest).map fun (content, after) =>
          (c :: content, after)

/-- Cut `left … right` off the front of a text: the content between the
delimiters and what follows.  There is none when the text does not start with
`left` or no delimiter closes it. -/
def scanPaired (left right : Char) : List Char → Option (List Char × List Char)
  | [] => none
  | c :: rest => if c = left then scanContent left right 0 false rest else none

end FieldRules.Text
