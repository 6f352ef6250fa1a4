-- SUMMARY: Files of a project and their classification.
import SolutionAtlas.Path

/-!
# Files

A file is classified by its name alone. Generated source is told apart first, by the endings that
tools give it.
-/

namespace SolutionAtlas

inductive FileKind where
  | source
  | generated
  | config
  | doc
  | resource
  | other
  deriving Repr, DecidableEq

namespace FileKind

def all : List FileKind :=
  [.source, .generated, .config, .doc, .resource, .other]

def name : FileKind → String
  | .source => "Source"
  | .generated => "Generated"
  | .config => "Config"
  | .doc => "Doc"
  | .resource => "Resource"
  | .other => "Other"

end FileKind

/-- Endings of the names that tools give to source files. -/
def generatedEndings : List String :=
  [".g.cs", ".g.i.cs", ".designer.cs", ".generated.cs", ".assemblyattributes.cs", ".assemblyinfo.cs"]

/-- A lower-case file name that a tool gives to source, or to the description of an assembly. -/
def isGeneratedFileName (name : String) : Bool :=
  generatedEndings.any (Text.endsWith name) || name == "assemblyinfo.cs" ||
    name == "assemblyattributes.cs"

/-- The kind that a lower-case extension stands for. -/
def FileKind.ofExtension? (extension : String) : Option FileKind :=
  if ["cs", "csx"].contains extension then some .source
  else if ["csproj", "sln", "slnx", "props", "targets", "json", "config", "xml", "yml", "yaml",
      "toml", "editorconfig", "ruleset", "runsettings"].contains extension then some .config
  else if ["md", "markdown", "txt", "rst", "adoc"].contains extension then some .doc
  else if ["resx", "png", "jpg", "jpeg", "gif", "svg", "ico", "css", "html", "cshtml", "razor",
      "ttf", "woff", "woff2"].contains extension then some .resource
  else none

/-- The kind of the file that a path names. -/
def FileKind.classify (path : String) : FileKind :=
  let name := Text.lowerAscii ((Path.fileName? path).getD "")
  if isGeneratedFileName name then .generated
  else
    match ofExtension? (Text.lowerAscii ((Path.extension? path).getD "")) with
    | some kind => kind
    | none => if name == ".editorconfig" || name == ".gitignore" then .config else .other

structure FileEntry where
  filePath : String
  relativePath : String
  projectFilePath : String
  extension : String
  sizeBytes : Nat
  lineCount : Nat
  /-- The time of the last change, in milliseconds since 1970. -/
  lastWriteMs : Nat
  kind : FileKind
  deriving Repr, DecidableEq

end SolutionAtlas
