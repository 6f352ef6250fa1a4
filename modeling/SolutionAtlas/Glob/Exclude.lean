-- SUMMARY: Configured exclusions: texts that a path contains, and globs that it matches.
import SolutionAtlas.Glob.Match
import SolutionAtlas.Text.Lowercase
import SolutionAtlas.Analysis.Report

/-!
# Exclusions

A pattern with a star or a question mark is a glob for the whole path. Any other pattern excludes
the paths that contain it, whatever its case.
-/

namespace SolutionAtlas

structure ExcludeFilter where
  /-- Texts in lower case, with slashes. -/
  substrings : List String := []
  globs : List Glob := []

namespace ExcludeFilter

def isGlob (pattern : String) : Bool :=
  pattern.toList.any fun c => c == '*' || c == '?'

/-- Adds a trimmed pattern. -/
def addPattern (f : ExcludeFilter) (pattern : String) : Except AnalysisError ExcludeFilter :=
  if isGlob pattern then
    let text := Text.forwardSlashes pattern
    match Glob.read text with
    | .ok g => .ok { f with globs := f.globs ++ [g] }
    | .error e =>
      .error (.config ("bad exclude glob " ++ pattern ++ ": error parsing glob '" ++ text ++ "': " ++
        e.message))
  else .ok { f with substrings := f.substrings ++ [Text.forwardSlashes (Text.lower pattern)] }

/-- The filter of some patterns; blank ones exclude nothing. -/
def ofPatterns (patterns : List String) : Except AnalysisError ExcludeFilter :=
  (patterns.filterMap Text.nonBlank?).foldlM addPattern {}

/-- The filter excludes a path that is relative to the root of its project. -/
def excludes (f : ExcludeFilter) (relativePath : String) : Bool :=
  let path := Text.lower relativePath
  f.substrings.any (Text.occursIn · path) || f.globs.any (·.holds false relativePath)

end ExcludeFilter

end SolutionAtlas
