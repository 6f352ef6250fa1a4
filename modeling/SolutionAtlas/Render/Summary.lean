-- SUMMARY: A solution described in Markdown.
import SolutionAtlas.Model.Solution

/-!
# Solution summary

A page with the projects, the conventions and the statistics of a solution. Paths are shown as the
solution holds them.
-/

namespace SolutionAtlas.Summary

def enabled (flag : Bool) : String :=
  if flag then "enabled" else "disabled"

/-- A row of the table of projects. -/
def projectRow (p : Project) : String :=
  let frameworks := if p.targetFrameworks.isEmpty then "-" else ", ".intercalate p.targetFrameworks
  "| " ++ " | ".intercalate [p.name, frameworks, toString p.statistics.fileCount,
    toString p.statistics.typeCount, toString p.statistics.memberCount] ++ " |"

def projectLines (projects : List Project) : List String :=
  if projects.isEmpty then ["_No projects found._"]
  else
    "| Project | Frameworks | Files | Types | Members |" :: "|---|---|---|---|---|" ::
      projects.map projectRow

/-- A line for a value that may be missing. -/
def lineIfSome (title : String) : Option String → List String
  | some value => ["- " ++ title ++ ": " ++ value]
  | none => []

def conventionLines (c : Conventions) : List String :=
  let editorConfig :=
    match c.editorConfigPath with
    | some path => if c.hasEditorConfig then path else "none"
    | none => "none"
  ["- Nullable reference types: " ++ enabled c.nullableEnabled,
    "- Implicit usings: " ++ enabled c.implicitUsingsEnabled] ++
  lineIfSome "Namespace style" (c.namespaceStyle.map NamespaceStyle.name) ++
  lineIfSome "Default namespace" c.defaultNamespace ++
  lineIfSome "Test framework" c.testFramework ++
  ["- EditorConfig: " ++ editorConfig] ++
  (if c.documentationFiles.isEmpty then []
    else ["- Documentation: " ++ ", ".intercalate c.documentationFiles])

def statisticLines (projects : Nat) (s : Statistics) : List String :=
  ["- Projects: " ++ toString projects,
    "- Files: " ++ toString s.fileCount ++ " (" ++ toString s.sourceFileCount ++ " source)",
    "- Lines: " ++ toString s.totalLines,
    "- Namespaces: " ++ toString s.namespaceCount,
    "- Types: " ++ toString s.typeCount ++ " (" ++ toString s.classCount ++ " classes, " ++
      toString s.interfaceCount ++ " interfaces)",
    "- Members: " ++ toString s.memberCount]

/-- The page of a solution. -/
def render (s : Solution) : String :=
  "\n".intercalate (
    ["# Solution: " ++ s.name, "", "Path: \x60" ++ s.path ++ "\x60", "", "## Projects", ""] ++
    projectLines s.projects ++ ["", "## Conventions", ""] ++
    conventionLines s.conventions ++ ["", "## Statistics", ""] ++
    statisticLines s.projects.length s.statistics)

end SolutionAtlas.Summary
