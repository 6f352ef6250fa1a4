-- SUMMARY: Projects and solutions, with the statistics counted over them.
import SolutionAtlas.Distinct
import SolutionAtlas.Model.Symbol
import SolutionAtlas.Model.File
import SolutionAtlas.Model.Conventions

/-!
# Projects and solutions

A project holds the namespaces and files found under its manifest; a solution holds projects. The
statistics and conventions of a solution are computed from those of its projects.
-/

namespace SolutionAtlas

/-- The sum of a number over the items of a list. -/
def totalOf {α : Type} (f : α → Nat) : List α → Nat
  | [] => 0
  | x :: xs => f x + totalOf f xs

structure Statistics where
  fileCount : Nat := 0
  sourceFileCount : Nat := 0
  totalLines : Nat := 0
  totalSizeBytes : Nat := 0
  namespaceCount : Nat := 0
  typeCount : Nat := 0
  memberCount : Nat := 0
  classCount : Nat := 0
  interfaceCount : Nat := 0
  deriving Repr, DecidableEq

/-- The counts of two parts together. -/
def Statistics.add (a b : Statistics) : Statistics :=
  { fileCount := a.fileCount + b.fileCount
    sourceFileCount := a.sourceFileCount + b.sourceFileCount
    totalLines := a.totalLines + b.totalLines
    totalSizeBytes := a.totalSizeBytes + b.totalSizeBytes
    namespaceCount := a.namespaceCount + b.namespaceCount
    typeCount := a.typeCount + b.typeCount
    memberCount := a.memberCount + b.memberCount
    classCount := a.classCount + b.classCount
    interfaceCount := a.interfaceCount + b.interfaceCount }

structure PackageReference where
  name : String
  version : Option String
  deriving Repr, DecidableEq

structure Project where
  name : String
  /-- The path of the manifest, by which a project is known. -/
  projectFilePath : String
  rootDirectories : List String := []
  targetFrameworks : List String := []
  packageReferences : List PackageReference := []
  projectReferences : List String := []
  namespaces : List Namespace := []
  files : List FileEntry := []
  statistics : Statistics := {}
  conventions : Conventions := {}
  deriving Repr, DecidableEq

namespace Project

/-- The types of a project, each with its namespace. -/
def types (p : Project) : List (Namespace × TypeSymbol) :=
  p.namespaces.flatMap fun n => n.types.map fun t => (n, t)

/-- The counts over the files and namespaces of a project. -/
def countStatistics (p : Project) : Statistics :=
  let types := p.types.map (·.2)
  { fileCount := p.files.length
    sourceFileCount := p.files.countP (·.kind = .source)
    totalLines := totalOf (·.lineCount) p.files
    totalSizeBytes := totalOf (·.sizeBytes) p.files
    namespaceCount := (firstOfEach id (p.namespaces.map (·.name))).length
    typeCount := types.length
    memberCount := (types.flatMap (·.members)).length
    classCount := types.countP fun t => t.symbol.kind = .classType ∨ t.symbol.kind = .recordType
    interfaceCount := types.countP (·.symbol.kind = .interfaceType) }

def withStatistics (p : Project) : Project :=
  { p with statistics := p.countStatistics }

end Project

structure Solution where
  name : String
  /-- The solution or project file, or the directory of a solution without a file. -/
  path : String
  projects : List Project := []
  statistics : Statistics := {}
  conventions : Conventions := {}
  deriving Repr, DecidableEq

namespace Solution

/-- The directory that all shown paths are relative to: the solution's path, or its parent when the
path has an extension. -/
def rootDir (s : Solution) : String :=
  if (Path.extension? s.path).isSome then (Path.parent? s.path).getD s.path else s.path

/-- The project of a given name or manifest path. Without an exact match a name counts whatever its
case. -/
def findProject? (s : Solution) (text : String) : Option Project :=
  let wanted := Text.trim text
  (s.projects.find? fun p => p.name == wanted || p.projectFilePath == wanted).or
    (s.projects.find? fun p => Text.eqIgnoreCase p.name wanted)

/-- The project with a given manifest path. -/
def projectById? (s : Solution) (id : String) : Option Project :=
  s.projects.find? (·.projectFilePath == id)

/-- The types of a solution, each with its project and namespace. -/
def types (s : Solution) : List (Project × Namespace × TypeSymbol) :=
  s.projects.flatMap fun p => p.types.map fun (n, t) => (p, n, t)

/-- The solution with the statistics and conventions that its projects give. A test framework known
from elsewhere stays when no project has one. -/
def withTotals (s : Solution) : Solution :=
  let conventions := (s.projects.map (·.conventions)).foldl Conventions.merge {}
  { s with
    statistics := (s.projects.map (·.statistics)).foldl Statistics.add {}
    conventions := { conventions with
      testFramework := conventions.testFramework.or s.conventions.testFramework } }

end Solution

end SolutionAtlas
