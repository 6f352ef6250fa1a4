-- SUMMARY: The solution at large: its projects, files, conventions and dependencies.
import SolutionAtlas.Graph.View
import SolutionAtlas.Query.Filter
import SolutionAtlas.Query.Loaded

/-!
# Overviews

Answers that the model gives at once. A blank project name stands for all projects.
-/

namespace SolutionAtlas

def ProjectSummary.ofProject (p : Project) : ProjectSummary :=
  ⟨p.name, p.projectFilePath, p.targetFrameworks, p.statistics⟩

def ProjectMetadata.ofProject (p : Project) : ProjectMetadata :=
  { name := p.name
    projectFilePath := p.projectFilePath
    rootDirectories := p.rootDirectories
    targetFrameworks := p.targetFrameworks
    packageReferences := p.packageReferences
    projectReferences := p.projectReferences
    namespaces := (firstOfEach id (p.namespaces.map (·.name))).mergeSort fun a b => a ≤ b
    statistics := p.statistics
    conventions := p.conventions }

namespace LoadedSolution

def overview (l : LoadedSolution) : SolutionOverview :=
  { name := l.solution.name
    path := l.solution.path
    projects := l.solution.projects.map ProjectSummary.ofProject
    statistics := l.solution.statistics
    conventions := l.solution.conventions }

def projectMetadata (l : LoadedSolution) (name : String) : Except QueryError ProjectMetadata :=
  (l.requireProject name).map ProjectMetadata.ofProject

/-- The conventions of one project, or those of the solution. -/
def conventions (l : LoadedSolution) (name : Option String) : Except QueryError ConventionsReport :=
  match name.bind Text.nonBlank? with
  | some name => (l.requireProject name).map fun p => ⟨some p.name, p.conventions⟩
  | none => .ok ⟨none, l.solution.conventions⟩

-- ---------------------------------------------------------------------------
-- Files
-- ---------------------------------------------------------------------------

/-- The file of a project with a given absolute path, or else with a given relative one. -/
def fileOfProject? (absolute relative : String) (p : Project) : Option FileEntry :=
  (p.files.find? (·.filePath == absolute)).or (p.files.find? (·.relativePath == relative))

/-- A type is declared in a file. -/
def declaresIn (file : String) (t : TypeSymbol) : Bool :=
  t.filePath == file || t.symbol.isDeclaredIn file

/-- The file that a path names, which is given without blanks around it. -/
def fileNamed (l : LoadedSolution) (wanted : String) : Except QueryError FileMetadata :=
  let absolute := Path.resolveUnder l.root wanted
  let relative := Text.forwardSlashes wanted
  let found := l.solution.projects.findSome? fun p =>
    (fileOfProject? absolute relative p).map fun f => (p, f)
  match found with
  | none => .error (.notFound .file wanted .listFiles)
  | some (p, f) =>
    .ok {
      file := f
      projectName := p.name
      types := (p.types.filter fun (_, t) => declaresIn f.filePath t).map fun (n, t) =>
        TypeSummary.ofType n.name t }

/-- What is known of a file, given by its path as seen from the root or by its absolute path. -/
def fileMetadata (l : LoadedSolution) (path : String) : Except QueryError FileMetadata :=
  match Text.nonBlank? path with
  | some wanted => l.fileNamed wanted
  | none => .error (.invalidArgument .emptyPath)

def defaultRecentFiles : Nat := 10
def maxRecentFiles : Nat := 100

/-- The latest change first, and by paths at the same time. -/
def recentLe (a b : FileEntry) : Bool :=
  if a.lastWriteMs ≠ b.lastWriteMs then b.lastWriteMs ≤ a.lastWriteMs else a.filePath ≤ b.filePath

/-- The files that were changed last. -/
def recentFiles (l : LoadedSolution) (count : Option Nat) (project : Option String) :
    Except QueryError RecentFiles := do
  let files := (← l.projectsFor project).flatMap (·.files)
  let shown := limitWithin count defaultRecentFiles maxRecentFiles
  return ⟨files.length, (files.mergeSort recentLe).take shown⟩

/-- The paths of all files, as seen from the root. -/
def filePaths (l : LoadedSolution) (project : Option String) : Except QueryError (List String) := do
  let files := (← l.projectsFor project).flatMap (·.files)
  return files.map fun f => Path.relativeTo l.root f.filePath

-- ---------------------------------------------------------------------------
-- Dependencies
-- ---------------------------------------------------------------------------

def defaultGraphDepth : Nat := 2

def dependencyGraph (l : LoadedSolution) (project : Option String) (depth : Option Nat) :
    Except QueryError DependencyGraph :=
  (l.graph.dependencyGraph project (depth.getD defaultGraphDepth)).mapError fun name =>
    .notFound .project name .listProjects

end LoadedSolution

end SolutionAtlas
