-- SUMMARY: Patterns for the elements and attributes that manifests are read by.
import SolutionAtlas.Text.Pattern
import SolutionAtlas.Text.Slice

/-!
# Markup patterns

Manifests are read by patterns and not as documents: a comment or a condition changes nothing. Names
of elements and attributes count whatever their case.
-/

namespace SolutionAtlas.Markup

open Pattern

/-- Two letters are one letter when case does not count. The Kelvin sign is a `k` and the long s is
an `s`. -/
def sameLetter (a b : Char) : Bool :=
  a.toLower == b.toLower || (a.toLower == 'k' && b == 'K') || (a.toLower == 's' && b == 'ſ')

/-- A text, whatever its case. -/
def word (s : String) : Pattern Char :=
  seq (s.toList.map fun c => .item (sameLetter c))

/-- A text, letter by letter. -/
def exactly (s : String) : Pattern Char :=
  seq (s.toList.map fun c => .item (· == c))

/-- The edge of a word. -/
def wordEdge : Pattern Char :=
  .edge fun a b => a.any Text.isWordPart != b.any Text.isWordPart

/-- The beginning of a line. -/
def lineStart : Pattern Char :=
  .edge fun a _ => a.all (· == '\n')

def blanks : Pattern Char :=
  .most Text.isBlank

/-- At least one character that satisfies a condition, as many as possible. -/
def oneOrMore (p : Char → Bool) : Pattern Char :=
  seq [.item p, .most p]

/-- The value of an attribute, in double quotes. -/
def quotedValue : Pattern Char :=
  seq [exactly "\"", .group (oneOrMore (· != '"')), exactly "\""]

/-- An attribute with one of some names. -/
def attributeNamed (names : List String) : Pattern Char :=
  seq [wordEdge, choice (names.map word), blanks, exactly "=", blanks, quotedValue]

/-- An opening tag up to the given attribute, which may be anywhere in it. -/
def tagWith (element name : String) : Pattern Char :=
  seq [word ("<" ++ element), wordEdge, .fewest (· != '>'), attributeNamed [name]]

/-- An element that holds text only; `tail` ends the names in both of its tags. -/
def textElement (element : String) (tail : Pattern Char) : Pattern Char :=
  seq [word ("<" ++ element), tail, exactly ">", blanks,
    .group (seq [.item (· != '<'), .fewest (· != '<')]),
    blanks, word ("</" ++ element), tail, exactly ">"]

/-- The text of the `i`-th group of a match, counted from the last. -/
def groupFromEnd (m : Cursor Char) (i : Nat) : String :=
  String.ofList (m.groups.getD i [])

end SolutionAtlas.Markup
