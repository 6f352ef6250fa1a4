-- SUMMARY: Habits of a project told from its packages, namespaces and files.
import SolutionAtlas.Model.Solution

/-!
# Detection of conventions

The test framework shows in the packages, the default namespace in the namespaces that the source
declares, and documents show in their names.
-/

namespace SolutionAtlas.Detect

/-- What the names of packages contain, in lower case, and the test framework that shows in it. -/
def testFrameworks : List (String × String) :=
  [("xunit", "xUnit"), ("nunit", "NUnit"), ("mstest", "MSTest"), ("tunit", "TUnit")]

/-- The first known test framework that some package belongs to. -/
def testFramework? (packages : List PackageReference) : Option String :=
  let names := packages.map fun p => Text.lower p.name
  (testFrameworks.find? fun f => names.any (Text.occursIn f.1)).map (·.2)

/-- The namespace `a` is a better default than `b`: longer in bytes, or equally long and first in
order. -/
def betterDefault (a b : String) : Bool :=
  b.utf8ByteSize < a.utf8ByteSize || (a.utf8ByteSize == b.utf8ByteSize && a < b)

/-- The best default among namespaces that are not empty. -/
def defaultNamespace? (names : List String) : Option String :=
  (names.filter (!·.isEmpty)).foldl (fun best n =>
    match best with
    | none => some n
    | some b => if betterDefault n b then some n else some b) none

/-- How the names of documents begin, in lower case. -/
def documentLeads : List String :=
  ["readme", "contributing", "changelog", "architecture"]

/-- A path with slashes names a document: by the beginning of its name, or as Markdown under a folder
of documents. -/
def isDocument (relativePath : String) : Bool :=
  let path := Text.lower relativePath
  let name := String.ofList (Text.afterLast '/' path.toList)
  documentLeads.any (Text.startsWith name) ||
    ((Text.startsWith path "docs/" || Text.occursIn "/docs/" path) &&
      (Text.endsWith name ".md" || Text.endsWith name ".markdown"))

end SolutionAtlas.Detect
