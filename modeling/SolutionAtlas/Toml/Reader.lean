-- SUMMARY: Reads TOML documents.
import SolutionAtlas.Toml.Scalar

/-!
# Reading TOML

A document is a list of lines: headers, and keys with their values, each of which goes into the
table of the header before it. Only arrays and long strings reach over several lines.
-/

namespace SolutionAtlas.Toml

def dropSpaces (s : List Char) : List Char :=
  s.dropWhile isSpace

/-- Drops a comment up to the end of its line. -/
def dropComment : List Char → List Char
  | '#' :: s => s.dropWhile (!isForbidden ·)
  | s => s

/-- The text behind the end of a line, which may begin with blanks and a comment. -/
def readLineEnd (s : List Char) : Option (List Char) :=
  match dropComment (dropSpaces s) with
  | [] => some []
  | '\n' :: s => some s
  | '\r' :: '\n' :: s => some s
  | _ => none

/-- Drops blanks, line ends and comments, as between the items of an array. -/
def dropGaps : Nat → List Char → List Char
  | 0, s => s
  | fuel + 1, s =>
    match dropLines s with
    | '#' :: rest => dropGaps fuel (dropComment ('#' :: rest))
    | rest => rest

-- ---------------------------------------------------------------------------
-- Keys
-- ---------------------------------------------------------------------------

def isBareKeyPart (c : Char) : Bool :=
  c.isAlphanum || c == '_' || c == '-'

/-- Reads one part of a key: bare, or a string within a line. -/
def readKeyPart (s : List Char) : Option (String × List Char) :=
  match s with
  | '"' :: rest => readQuoted true '"' (rest.length + 1) [] rest
  | '\'' :: rest => readQuoted false '\'' (rest.length + 1) [] rest
  | _ =>
    let bare := s.takeWhile isBareKeyPart
    if bare.isEmpty then none else some (String.ofList bare, s.drop bare.length)

/-- Reads a dotted key: the parts in front of the last one, and the last one. `acc` holds the parts
that are read, latest first. -/
def readKey : Nat → List String → List Char → Option ((List String × String) × List Char)
  | 0, _, _ => none
  | fuel + 1, acc, s => do
    let (part, rest) ← readKeyPart (dropSpaces s)
    match dropSpaces rest with
    | '.' :: rest => readKey fuel (part :: acc) rest
    | rest => some ((acc.reverse, part), rest)

-- ---------------------------------------------------------------------------
-- Values
-- ---------------------------------------------------------------------------

mutual

/-- Reads a value; `depth` bounds the nesting of arrays and tables in it. -/
def readValue : Nat → Nat → List Char → Option (Toml × List Char)
  | 0, _, _ => none
  | fuel + 1, depth, s =>
    match s, depth with
    | '"' :: _, _ => (readString s).map fun r => (.string r.1, r.2)
    | '\'' :: _, _ => (readString s).map fun r => (.string r.1, r.2)
    | '[' :: rest, depth + 1 => readItems fuel depth [] rest
    | '{' :: rest, depth + 1 =>
      match dropSpaces rest with
      | '}' :: rest => some (.table [], rest)
      | rest => readMembers fuel depth [] rest
    | s, _ =>
      let (word, rest) := cutPlain s
      (plain? word).map (·, rest)

/-- Reads the items of an array; `acc` holds those read, latest first. -/
def readItems : Nat → Nat → List Toml → List Char → Option (Toml × List Char)
  | 0, _, _, _ => none
  | fuel + 1, depth, acc, s =>
    match dropGaps s.length s with
    | ']' :: rest => some (.array acc.reverse, rest)
    | s => do
      let (item, s) ← readValue fuel depth s
      match dropGaps s.length s with
      | ',' :: rest => readItems fuel depth (item :: acc) rest
      | ']' :: rest => some (.array (item :: acc).reverse, rest)
      | _ => none

/-- Reads the members of a table in braces into a table under construction. -/
def readMembers : Nat → Nat → Draft.Members → List Char → Option (Toml × List Char)
  | 0, _, _, _ => none
  | fuel + 1, depth, acc, s => do
    let ((path, key), s) ← readKey (s.length + 1) [] s
    match s with
    | '=' :: s =>
      let (value, s) ← readValue fuel depth (dropSpaces s)
      let acc ← Draft.addValue path key value acc
      match dropSpaces s with
      | ',' :: rest => readMembers fuel depth acc rest
      | '}' :: rest => some (.table (Draft.membersToToml acc), rest)
      | _ => none
    | _ => none

end

/-- How deep arrays and tables may nest in a value. -/
def maxDepth : Nat := 79

-- ---------------------------------------------------------------------------
-- Documents
-- ---------------------------------------------------------------------------

/-- A document that is being read. -/
structure Reading where
  /-- The path of the latest header. -/
  header : List String := []
  members : Draft.Members := []

/-- Reads a header behind its opening bracket. -/
def Reading.readHeader (r : Reading) (s : List Char) : Option (Reading × List Char) := do
  let ((path, key), s) ← readKey (s.length + 1) [] s
  match s with
  | ']' :: s =>
    return (⟨path ++ [key], ← Draft.openTable path key r.members⟩, ← readLineEnd s)
  | _ => none

/-- Reads the header of an array of tables behind its opening brackets. -/
def Reading.readArrayHeader (r : Reading) (s : List Char) : Option (Reading × List Char) := do
  let ((path, key), s) ← readKey (s.length + 1) [] s
  match s with
  | ']' :: ']' :: s =>
    return (⟨path ++ [key], ← Draft.openTables path key r.members⟩, ← readLineEnd s)
  | _ => none

/-- Reads a key and its value. -/
def Reading.readPair (r : Reading) (s : List Char) : Option (Reading × List Char) := do
  let ((path, key), s) ← readKey (s.length + 1) [] s
  match s with
  | '=' :: s =>
    let s := dropSpaces s
    let (value, s) ← readValue (2 * s.length + 2) maxDepth s
    return (⟨r.header, ← Draft.addUnder r.header path key value r.members⟩, ← readLineEnd s)
  | _ => none

/-- Reads a line that is not empty. -/
def Reading.readLine (r : Reading) : List Char → Option (Reading × List Char)
  | '[' :: '[' :: s => r.readArrayHeader s
  | '[' :: s => r.readHeader s
  | s => r.readPair s

/-- Reads lines to the end of the text. -/
def Reading.readAll : Nat → Reading → List Char → Option Reading
  | 0, _, _ => none
  | fuel + 1, r, s =>
    match dropSpaces s with
    | [] => some r
    | '#' :: s => do readAll fuel r (← readLineEnd ('#' :: s))
    | '\n' :: s => readAll fuel r s
    | '\r' :: '\n' :: s => readAll fuel r s
    | s => do
      let (r, s) ← r.readLine s
      readAll fuel r s

/-- The table of a document, which may begin with a byte order mark. -/
def read? (text : String) : Option Toml :=
  let s :=
    match text.toList with
    | '\uFEFF' :: s => s
    | s => s
  ((Reading.readAll (s.length + 1) {} s).map fun r => .table (Draft.membersToToml r.members))

end SolutionAtlas.Toml
