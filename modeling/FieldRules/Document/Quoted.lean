import FieldRules.Text.Hex

/-!
# Quoted JSON texts

A text between double quotes, as JSON writes it: quotes, backslashes and control
characters are escaped, five of the latter by a letter of their own.
-/

namespace FieldRules.Json

open FieldRules.Text (hexDigits)

/-- The letters behind a backslash for characters that have one. -/
def escapeLetters : List (Char × Char) :=
  [('"', '"'), ('\\', '\\'), ('\x08', 'b'), ('\x0c', 'f'), ('\n', 'n'), ('\r', 'r'), ('\t', 't')]

/-- One character of a quoted text. -/
def escape (c : Char) : List Char :=
  match escapeLetters.lookup c with
  | some letter => ['\\', letter]
  | none =>
      if c.toNat < 0x20 then
        let digits := hexDigits c.toNat
        '\\' :: 'u' :: List.replicate (4 - digits.length) '0' ++ digits
      else [c]

/-- A quoted text. -/
def quoted (text : String) : String :=
  .ofList ('"' :: text.toList.flatMap escape ++ ['"'])

end FieldRules.Json
