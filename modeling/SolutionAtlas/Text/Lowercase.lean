-- SUMMARY: Lower-casing of text, for ASCII alone and for all of Unicode.
import SolutionAtlas.Text.CharClass

/-!
# Lower case

`lowerAscii` changes the letters `A` to `Z` and nothing else. `lower` is the full mapping: a letter
may become two characters, and a capital sigma at the end of a word becomes a final sigma.
-/

namespace SolutionAtlas.Text

/-- Lower-cases the letters `A` to `Z` of a text and keeps every other character. -/
def lowerAscii (s : String) : String :=
  String.ofList (s.toList.map Char.toLower)

/-- Equality of two texts when `A` to `Z` count as `a` to `z`. -/
def eqIgnoreCase (s t : String) : Bool :=
  lowerAscii s == lowerAscii t

/-- The lower-case form of one character, regardless of its neighbours. -/
def lowerChar (c : Char) : List Char :=
  let n := c.toNat
  if n < 0x80 then [c.toLower]
  else if n == 0x130 then ['i', Char.ofNat 0x307]
  else
    match CharTables.lowercaseRuns.find? fun r =>
      r.1 ≤ n && n ≤ r.2.1 && (n - r.1) % r.2.2.1 == 0 with
    | some r => [Char.ofNat (r.2.2.2 + (n - r.1))]
    | none => [c]

/-- A cased letter stands first, once case-ignorable characters are passed over. -/
def startsCased (s : List Char) : Bool :=
  match s.dropWhile isCaseIgnorable with
  | c :: _ => isCased c
  | [] => false

/-- The lower-case forms of `s`, where `before` holds the characters in front of it, nearest first. -/
def lowerFrom (before : List Char) : List Char → List Char
  | [] => []
  | c :: s =>
    let form :=
      if c == 'Σ' then
        if startsCased before && !startsCased s then ['ς'] else ['σ']
      else lowerChar c
    form ++ lowerFrom (c :: before) s

/-- The lower-case form of a text. -/
def lower (s : String) : String :=
  String.ofList (lowerFrom [] s.toList)

end SolutionAtlas.Text
