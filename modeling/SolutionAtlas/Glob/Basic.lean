-- SUMMARY: Globs and their reader.
import SolutionAtlas.Text.Slice

/-!
# Globs

A glob is read in two steps: characters become lexemes, with classes and escapes resolved, and
lexemes become pieces, with groups nested and double stars told apart by what stands around them.
The first fault from the left is reported.
-/

namespace SolutionAtlas

inductive GlobError where
  | unclosedClass
  | invalidRange (a b : Char)
  | unopenedGroup
  | unclosedGroup
  | danglingEscape
  deriving Repr, DecidableEq

def GlobError.message : GlobError → String
  | .unclosedClass => "unclosed character class; missing ']'"
  | .invalidRange a b =>
    "invalid range; '" ++ String.singleton a ++ "' > '" ++ String.singleton b ++ "'"
  | .unopenedGroup =>
    "unopened alternate group; missing '\x7b' (maybe escape '\x7d' with '[\x7d]'?)"
  | .unclosedGroup =>
    "unclosed alternate group; missing '\x7d' (maybe escape '\x7b' with '[\x7b]'?)"
  | .danglingEscape => "dangling '\\'"

namespace Glob

/-- The characters between brackets: those of some ranges, or all others. -/
structure CharSet where
  negated : Bool
  ranges : List (Char × Char)
  deriving Repr, DecidableEq

inductive Piece where
  | literal (c : Char)
  | any
  | star
  /-- A double star at the beginning: any folders, or none. -/
  | treeStart
  /-- A double star at the end: everything inside a folder. -/
  | treeEnd
  /-- A double star between slashes: any folders, or none. -/
  | treeInside
  | oneOf (set : CharSet)
  | group (branches : List (List Piece))
  deriving Repr

-- ---------------------------------------------------------------------------
-- Lexemes
-- ---------------------------------------------------------------------------

inductive Lexeme where
  | literal (c : Char)
  /-- A slash that was not escaped. -/
  | slash
  | any
  | star
  | oneOf (set : CharSet)
  | openGroup
  | closeGroup
  | comma
  deriving Repr, DecidableEq

/-- A set of characters that is being read. -/
structure SetReading where
  negated : Bool
  /-- The ranges so far, latest first. -/
  ranges : List (Char × Char) := []
  /-- The next character ends the latest range. -/
  inRange : Bool := false
  deriving Repr, DecidableEq

namespace SetReading

/-- Nothing has been read: a bracket or a hyphen stands for itself. -/
def isFresh (s : SetReading) : Bool :=
  s.ranges.isEmpty

/-- Ends the latest range, or begins one of a single character. -/
def put (s : SetReading) (c : Char) : Except GlobError SetReading :=
  match s.inRange, s.ranges with
  | true, (a, _) :: rest =>
    if c < a then .error (.invalidRange a c)
    else .ok { s with ranges := (a, c) :: rest, inRange := false }
  | _, _ => .ok { s with ranges := (c, c) :: s.ranges, inRange := false }

def add (s : SetReading) (c : Char) : Except GlobError SetReading :=
  if c == '-' && !s.isFresh && !s.inRange then .ok { s with inRange := true }
  else s.put c

/-- The set that has been read; a hyphen at its end stands for itself. -/
def close (s : SetReading) : CharSet :=
  ⟨s.negated, ((if s.inRange then [('-', '-')] else []) ++ s.ranges).reverse⟩

end SetReading

/-- The lexeme of a character that is neither a bracket nor a backslash. -/
def lexemeOf : Char → Lexeme
  | '?' => .any
  | '*' => .star
  | '/' => .slash
  | '{' => .openGroup
  | '}' => .closeGroup
  | ',' => .comma
  | c => .literal c

/-- The lexemes of a text up to its first fault. `set` is the set of characters that is open. -/
def lexemes (set : Option SetReading) : List Char → List Lexeme × Option GlobError
  | [] => ([], if set.isSome then some .unclosedClass else none)
  | c :: s =>
    match set with
    | some reading =>
      if c == ']' && !reading.isFresh then
        let (rest, fault) := lexemes none s
        (.oneOf reading.close :: rest, fault)
      else
        match reading.add c with
        | .ok reading => lexemes (some reading) s
        | .error fault => ([], some fault)
    | none =>
      match c, s with
      | '[', '!' :: s => lexemes (some ⟨true, [], false⟩) s
      | '[', '^' :: s => lexemes (some ⟨true, [], false⟩) s
      | '[', s => lexemes (some ⟨false, [], false⟩) s
      | '\\', [] => ([], some .danglingEscape)
      | '\\', e :: s =>
        let (rest, fault) := lexemes none s
        (.literal e :: rest, fault)
      | c, s =>
        let (rest, fault) := lexemes none s
        (lexemeOf c :: rest, fault)

-- ---------------------------------------------------------------------------
-- Pieces
-- ---------------------------------------------------------------------------

/-- A glob that is being read: the open branch, and the groups around it. -/
structure Reading where
  /-- The pieces of the open branch, latest first. -/
  branch : List Piece := []
  /-- The closed branches of the innermost group, latest first. -/
  closed : List (List Piece) := []
  /-- The open branch and the closed branches around each open group, innermost first. -/
  outer : List (List Piece × List (List Piece)) := []
  /-- The character in front was a slash. -/
  behindSlash : Bool := false

namespace Reading

def push (r : Reading) (p : Piece) : Reading :=
  { r with branch := p :: r.branch, behindSlash := false }

def openGroup (r : Reading) : Reading :=
  { outer := (r.branch, r.closed) :: r.outer }

def comma (r : Reading) : Reading :=
  match r.outer with
  | [] => r.push (.literal ',')
  | _ => { outer := r.outer, closed := r.branch.reverse :: r.closed }

def closeGroup (r : Reading) : Except GlobError Reading :=
  match r.outer with
  | [] => .error .unopenedGroup
  | (branch, closed) :: outer =>
    .ok { branch := .group (r.branch.reverse :: r.closed).reverse :: branch, closed, outer }

/-- Puts a double star that spans folders in the place of the slash in front of it. Next to another
one it changes nothing. -/
def span (r : Reading) (p : Piece) : Reading :=
  match r.branch with
  | .treeStart :: _ => r
  | .treeEnd :: _ => r
  | _ :: rest => { r with branch := p :: rest }
  | [] => r.push p

/-- A slash that belongs to the double star in front of it. -/
def passSlash (r : Reading) : Reading :=
  { r with behindSlash := true }

/-- A double star that spans no folders. -/
def twoStars (r : Reading) : Reading :=
  (r.push .star).push .star

end Reading

/-- Reads lexemes as pieces. -/
def readPieces (r : Reading) : List Lexeme → Except GlobError Reading
  | [] => .ok r
  | .star :: .star :: rest =>
    if r.branch.isEmpty then
      match rest with
      | [] => .ok (r.push .treeStart)
      | .slash :: rest => readPieces (r.push .treeStart).passSlash rest
      | rest => readPieces r.twoStars rest
    else if !r.behindSlash then readPieces r.twoStars rest
    else
      match rest with
      | [] => .ok (r.span .treeEnd)
      | .slash :: rest => readPieces (r.span .treeInside).passSlash rest
      | .comma :: rest =>
        if r.outer.isEmpty then readPieces r.twoStars.comma rest
        else readPieces (r.span .treeEnd).comma rest
      | .closeGroup :: rest =>
        if r.outer.isEmpty then .error .unopenedGroup
        else do readPieces (← (r.span .treeEnd).closeGroup) rest
      | rest => readPieces r.twoStars rest
  | l :: rest =>
    match l with
    | .literal c => readPieces { r.push (.literal c) with behindSlash := c == '/' } rest
    | .slash => readPieces (r.push (.literal '/')).passSlash rest
    | .any => readPieces (r.push .any) rest
    | .star => readPieces (r.push .star) rest
    | .oneOf set => readPieces (r.push (.oneOf set)) rest
    | .openGroup => readPieces r.openGroup rest
    | .comma => readPieces r.comma rest
    | .closeGroup => do readPieces (← r.closeGroup) rest

end Glob

/-- A glob in pieces. -/
structure Glob where
  pieces : List Glob.Piece

/-- Reads a glob. -/
def Glob.read (text : String) : Except GlobError Glob := do
  let (lexemes, fault) := lexemes none text.toList
  let r ← readPieces {} lexemes
  match fault with
  | some fault => throw fault
  | none => if r.outer.isEmpty then return ⟨r.branch.reverse⟩ else throw .unclosedGroup

end SolutionAtlas
