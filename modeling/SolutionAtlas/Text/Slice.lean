-- SUMMARY: Cutting, trimming and searching text, as functions on its list of characters.
import SolutionAtlas.Text.CharClass

/-!
# Cutting and searching

The operations on text that the rest of the library is built from. Each is a function on a list of
characters, with a companion on `String` where callers hold one.
-/

namespace SolutionAtlas.Text

-- ---------------------------------------------------------------------------
-- Trimming
-- ---------------------------------------------------------------------------

/-- Drops the blanks a text starts with. -/
def trimStartChars (s : List Char) : List Char :=
  s.dropWhile isBlank

/-- Drops the blanks a text ends with. -/
def trimEndChars (s : List Char) : List Char :=
  (s.reverse.dropWhile isBlank).reverse

/-- Drops the blanks at both ends. -/
def trimChars (s : List Char) : List Char :=
  trimEndChars (trimStartChars s)

@[inherit_doc trimStartChars]
def trimStart (s : String) : String := String.ofList (trimStartChars s.toList)

@[inherit_doc trimEndChars]
def trimEnd (s : String) : String := String.ofList (trimEndChars s.toList)

@[inherit_doc trimChars]
def trim (s : String) : String := String.ofList (trimChars s.toList)

/-- `none` for a text of blanks only, otherwise the trimmed text. -/
def nonBlank? (s : String) : Option String :=
  let t := trim s
  if t.isEmpty then none else some t

-- ---------------------------------------------------------------------------
-- Splitting
-- ---------------------------------------------------------------------------

/-- The pieces of a text between the characters that satisfy `p`; one more than there are such
characters. -/
def splitChars (p : Char → Bool) : List Char → List (List Char)
  | [] => [[]]
  | c :: s =>
    if p c then [] :: splitChars p s
    else
      match splitChars p s with
      | piece :: rest => (c :: piece) :: rest
      | [] => [[c]]

/-- The pieces of a text between the occurrences of `c`. -/
def split (c : Char) (s : String) : List String :=
  (splitChars (· == c) s.toList).map String.ofList

/-- The maximal runs of characters that are no blanks. -/
def wordsChars (s : List Char) : List (List Char) :=
  (splitChars isBlank s).filter (!·.isEmpty)

/-- The text with every run of blanks made one space and none left at the ends. -/
def collapseBlanks (s : String) : String :=
  " ".intercalate ((wordsChars s.toList).map String.ofList)

/-- The part of a text after the last `c`; the whole text when there is none. -/
def afterLast (c : Char) (s : List Char) : List Char :=
  (s.reverse.takeWhile (· != c)).reverse

/-- The part of a text before the first `c`; the whole text when there is none. -/
def beforeFirst (c : Char) (s : List Char) : List Char :=
  s.takeWhile (· != c)

-- ---------------------------------------------------------------------------
-- Searching
-- ---------------------------------------------------------------------------

/-- The text behind `lead`, when `s` starts with it. -/
def dropLead? : List Char → List Char → Option (List Char)
  | [], s => some s
  | _ :: _, [] => none
  | a :: lead, c :: s => if a == c then dropLead? lead s else none

/-- The texts before and behind the first occurrence of `needle`. -/
def cutAt? (needle : List Char) : List Char → Option (List Char × List Char)
  | [] => (dropLead? needle []).map fun rest => ([], rest)
  | c :: s =>
    match dropLead? needle (c :: s) with
    | some rest => some ([], rest)
    | none => (cutAt? needle s).map fun cut => (c :: cut.1, cut.2)

/-- The number of characters in front of the first occurrence of `needle`. -/
def find? (needle s : List Char) : Option Nat :=
  (cutAt? needle s).map (·.1.length)

/-- `needle` occurs in `s`. -/
def occursIn (needle s : String) : Bool :=
  (cutAt? needle.toList s.toList).isSome

/-- `s` starts with `lead`. -/
def startsWith (s lead : String) : Bool :=
  (dropLead? lead.toList s.toList).isSome

/-- `s` ends with `tail`. -/
def endsWith (s tail : String) : Bool :=
  (dropLead? tail.toList.reverse s.toList.reverse).isSome

/-- The text with each `a` made `b`. -/
def replaceChar (a b : Char) (s : String) : String :=
  String.ofList (s.toList.map fun c => if c == a then b else c)

/-- The text with each backslash made a slash. -/
def forwardSlashes (s : String) : String :=
  replaceChar '\\' '/' s

end SolutionAtlas.Text
