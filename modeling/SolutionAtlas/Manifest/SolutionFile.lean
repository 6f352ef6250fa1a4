-- SUMMARY: The projects that a solution file lists.
import SolutionAtlas.Manifest.Markup
import SolutionAtlas.Path

/-!
# Solution files

A solution file lists projects by name and path, or in the newer format by path alone. Entries that
are no C# projects, such as folders, are passed over.
-/

namespace SolutionAtlas

structure ProjectEntry where
  name : String
  manifestPath : String
  deriving Repr, DecidableEq

namespace SolutionFile

open Pattern Markup

/-- The line of a project: the kind of project in braces, its name and its path. -/
def projectLine : Pattern Char :=
  seq [lineStart, blanks, exactly "Project(\"\x7b", .most (· != '}'), exactly "\x7d\")", blanks,
    exactly "=", blanks, quotedValue, blanks, exactly ",", blanks, quotedValue]

/-- The manifest that an entry names, when it is that of a C# project. -/
def manifestPath? (directory path : String) : Option String :=
  let relative := Text.forwardSlashes path
  if Text.endsWith (Text.lowerAscii relative) ".csproj" then
    some (Path.normalize (Path.join directory relative))
  else none

/-- The projects of a solution file in a given directory. -/
def read (text directory : String) : List ProjectEntry :=
  (projectLine.findAll text.toList).filterMap fun m =>
    (manifestPath? directory (groupFromEnd m 0)).map fun path => ⟨groupFromEnd m 1, path⟩

/-- The projects of a solution file in the newer format, named after their manifests. -/
def readMarkup (text directory : String) : List ProjectEntry :=
  ((tagWith "Project" "Path").findAll text.toList).filterMap fun m =>
    (manifestPath? directory (groupFromEnd m 0)).map fun path => ⟨Path.fileStem path, path⟩

end SolutionFile

end SolutionAtlas
