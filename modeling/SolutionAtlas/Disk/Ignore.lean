-- SUMMARY: Files of ignore rules, and what they say of a place.
import SolutionAtlas.Disk.Basic
import SolutionAtlas.Glob.Match
import SolutionAtlas.Text.Lines

/-!
# Ignore rules

A rule is a glob that ignores or keeps. Of the rules of one file the last that fits decides, and of
the files of one kind the nearest with a rule that fits. The kinds have an order of their own. A
file is in force for everything below its folder.
-/

namespace SolutionAtlas

structure IgnoreRule where
  glob : Glob
  /-- The rule keeps what it fits, instead of ignoring it. -/
  keeps : Bool
  foldersOnly : Bool

namespace IgnoreRule

/-- Drops the blanks at the end of a line, unless they are escaped. -/
def trimLine (line : String) : String :=
  if Text.endsWith line "\\ " then line else Text.trimEnd line

/-- Splits off the mark of a rule that keeps, and the slash of a rule that is bound to its folder. -/
def splitMarks : List Char → (Bool × Bool) × List Char
  | '\\' :: '!' :: s => ((false, false), '!' :: s)
  | '\\' :: '#' :: s => ((false, false), '#' :: s)
  | '!' :: '/' :: s => ((true, true), s)
  | '!' :: s => ((true, false), s)
  | '/' :: s => ((false, true), s)
  | s => ((false, false), s)

/-- Splits off the slash of a rule for folders only. -/
def splitFolderMark (s : List Char) : Bool × List Char :=
  match s.reverse with
  | '/' :: '\\' :: r => (true, r.reverse)
  | '/' :: r => (true, r.reverse)
  | _ => (false, s)

/-- The glob of a rule: one without a slash fits at any depth, and what ends in a double star fits
inside the folder and not the folder itself. -/
def globText (bound : Bool) (s : List Char) : String :=
  let text := String.ofList s
  let anywhere := !bound && !s.contains '/' && text != "**"
  let text := if anywhere then "**/" ++ text else text
  if Text.endsWith text "/**" then text ++ "/*" else text

/-- The rule of a line, `none` for comments, blank lines and faulty globs. -/
def read? (line : String) : Option IgnoreRule :=
  if Text.startsWith line "#" then none
  else
    let line := trimLine line
    if line.isEmpty then none
    else
      let ((keeps, bound), s) := splitMarks line.toList
      let (foldersOnly, s) := splitFolderMark s
      match Glob.read (globText bound s) with
      | .ok glob => some ⟨glob, keeps, foldersOnly⟩
      | .error _ => none

/-- The rule fits a path that is relative to its folder. -/
def fits (r : IgnoreRule) (relative : Place) (isFolder : Bool) : Bool :=
  (isFolder || !r.foldersOnly) && r.glob.holds true ("/".intercalate relative)

end IgnoreRule

/-- The files of ignore rules, in the order in which they decide. -/
inductive IgnoreKind where
  | general
  | repository
  | exclude
  deriving Repr, DecidableEq

/-- The rules of one file, and the folder they are in force for. -/
structure IgnoreFile where
  kind : IgnoreKind
  folder : Place
  rules : List IgnoreRule

namespace IgnoreFile

/-- The kind of the file of ignore rules at a place, and its folder. -/
def kindAt? (p : Place) : Option (IgnoreKind × Place) :=
  match p.reverse with
  | ".ignore" :: above => some (.general, above.reverse)
  | ".gitignore" :: above => some (.repository, above.reverse)
  | "exclude" :: "info" :: ".git" :: above => some (.exclude, above.reverse)
  | _ => none

/-- The lines of a file up to the first that is no text. -/
def textLines (bytes : ByteArray) : List String :=
  let pieces := (bytes.toList.splitBy fun a _ => a != 10).map fun piece => piece.filter (· != 10)
  let texts := pieces.map fun piece => String.fromUTF8? ⟨piece.toArray⟩
  ((texts.takeWhile Option.isSome).filterMap id).map fun line =>
    String.ofList (Text.dropReturn line.toList)

/-- Drops the byte order marks at the beginning of a text. -/
def dropMarks (lines : List String) : List String :=
  match lines with
  | first :: rest => String.ofList (first.toList.dropWhile (· == '\uFEFF')) :: rest
  | [] => []

/-- The rules of a file, in the order of their lines. -/
def readRules (bytes : ByteArray) : List IgnoreRule :=
  (dropMarks (textLines bytes)).filterMap IgnoreRule.read?

/-- All files of ignore rules on a disk. -/
def all (d : Disk) : List IgnoreFile :=
  d.files.filterMap fun (p, data) =>
    (kindAt? p).map fun (kind, folder) => ⟨kind, folder, readRules data.bytes⟩

/-- Whether a file's rules keep a place; `none` when no rule fits it. -/
def keeps? (f : IgnoreFile) (p : Place) (isFolder : Bool) : Option Bool :=
  let relative := p.drop f.folder.length
  (f.rules.reverse.find? (·.fits relative isFolder)).map (·.keeps)

/-- The file is in force for a place. -/
def covers (f : IgnoreFile) (p : Place) : Bool :=
  f.folder.length < p.length && f.folder.isPrefixOf p

/-- Whether the files of one kind keep a place: the nearest with a rule for it decides. -/
def keepsByKind? (files : List IgnoreFile) (kind : IgnoreKind) (p : Place) (isFolder : Bool) :
    Option Bool :=
  let near := (files.filter fun f => f.kind == kind && f.covers p).mergeSort fun a b =>
    b.folder.length ≤ a.folder.length
  near.findSome? (·.keeps? p isFolder)

/-- Whether ignore rules keep a place; `none` when no rule fits it. -/
def keepsByAll? (files : List IgnoreFile) (p : Place) (isFolder : Bool) : Option Bool :=
  [IgnoreKind.general, .repository, .exclude].findSome? fun kind =>
    keepsByKind? files kind p isFolder

end IgnoreFile

end SolutionAtlas
