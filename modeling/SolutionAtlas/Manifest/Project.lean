-- SUMMARY: What a project manifest says of its project.
import SolutionAtlas.Manifest.Markup
import SolutionAtlas.Model.Solution

/-!
# Project manifests

A manifest names the frameworks, packages and projects that a project is built with. What imported
files or conditions would add is not seen.
-/

namespace SolutionAtlas

structure Manifest where
  targetFrameworks : List String := []
  packageReferences : List PackageReference := []
  /-- The manifest paths of the projects referred to, without `.` and `..`. -/
  projectReferences : List String := []
  nullableEnabled : Bool := false
  implicitUsingsEnabled : Bool := false
  rootNamespace : Option String := none
  deriving Repr, DecidableEq

namespace Manifest

open Pattern Markup

def targetFrameworkElement : Pattern Char :=
  textElement "TargetFramework" (optional (word "s"))

/-- The opening tag of a package reference: its attributes, and the slash of an empty element. -/
def packageTag : Pattern Char :=
  seq [word "<PackageReference", wordEdge, .group (.fewest (· != '>')),
    .group (optional (exactly "/")), exactly ">"]

def versionElement : Pattern Char :=
  seq [blanks, textElement "Version" .empty]

/-- The frameworks that an element lists. -/
def listedFrameworks (text : String) : List String :=
  (Text.split ';' text).filterMap Text.nonBlank?

/-- The frameworks of a manifest. -/
def readFrameworks (s : List Char) : List String :=
  firstOfEach id ((targetFrameworkElement.findAll s).flatMap fun m =>
    listedFrameworks (groupFromEnd m 0))

/-- The value of the first attribute with one of some names, trimmed. -/
def attributeValue? (names : List String) (s : String) : Option String :=
  ((attributeNamed names).find? none s.toList).map fun m => Text.trim (groupFromEnd m 0)

/-- The package reference of a tag. Without an attribute for it, the version may be the first element
inside. -/
def readPackage? (tag : Cursor Char) : Option PackageReference :=
  let attributes := groupFromEnd tag 1
  (attributeValue? ["Include", "Update"] attributes).map fun name =>
    let version :=
      match attributeValue? ["Version"] attributes with
      | some v => some v
      | none =>
        if groupFromEnd tag 0 == "/" then none
        else (versionElement.matchAt? none tag.rest).map (groupFromEnd · 0)
    ⟨name, version⟩

/-- The packages that a manifest refers to, each name once. -/
def readPackages (s : List Char) : List PackageReference :=
  firstOfEach (·.name) ((packageTag.findAll s).filterMap readPackage?)

/-- The project references of a manifest in a given directory. -/
def readReferences (directory : String) (s : List Char) : List String :=
  firstOfEach id (((tagWith "ProjectReference" "Include").findAll s).map fun m =>
    Path.normalize (Path.join directory (Text.forwardSlashes (groupFromEnd m 0))))

/-- Reads a manifest that lies in a given directory. -/
def read (text directory : String) : Manifest :=
  let s := text.toList
  let compact := Text.lowerAscii (String.ofList (s.filter (!Text.isBlank ·)))
  { targetFrameworks := readFrameworks s
    packageReferences := readPackages s
    projectReferences := readReferences directory s
    nullableEnabled := Text.occursIn "<nullable>enable</nullable>" compact
    implicitUsingsEnabled :=
      Text.occursIn "<implicitusings>enable</implicitusings>" compact ||
        Text.occursIn "<implicitusings>true</implicitusings>" compact
    rootNamespace :=
      ((textElement "RootNamespace" .empty).find? none s).map (groupFromEnd · 0) }

end Manifest

end SolutionAtlas
