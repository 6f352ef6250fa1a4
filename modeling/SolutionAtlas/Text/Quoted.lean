-- SUMMARY: Text between double quotes, with whatever cannot be shown written as an escape.
import SolutionAtlas.Text.CharClass

/-!
# Quoted text

A quoted text stands between double quotes. Quotes and backslashes get a backslash, the common
controls their letter, and any other character that does not show itself its code point in braces.
-/

namespace SolutionAtlas.Text

/-- The lower-case hexadecimal digits of a number. -/
def hexDigits (n : Nat) : List Char :=
  Nat.toDigits 16 n

/-- One character of a quoted text. -/
def quoteChar (c : Char) : List Char :=
  match c with
  | '"' => ['\\', '"']
  | '\\' => ['\\', '\\']
  | '\n' => ['\\', 'n']
  | '\r' => ['\\', 'r']
  | '\t' => ['\\', 't']
  | _ =>
    if c.toNat == 0 then ['\\', '0']
    else if isGraphemeExtend c || !isPrintable c then
      ['\\', 'u', '{'] ++ hexDigits c.toNat ++ ['}']
    else [c]

/-- The text in double quotes, escaped so that its characters can be told apart. -/
def quoted (s : String) : String :=
  "\"" ++ String.ofList (s.toList.flatMap quoteChar) ++ "\""

end SolutionAtlas.Text
