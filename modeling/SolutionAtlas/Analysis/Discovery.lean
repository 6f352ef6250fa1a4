-- SUMMARY: The projects that a path stands for.
import SolutionAtlas.Analysis.Report
import SolutionAtlas.Disk.Scan
import SolutionAtlas.Manifest.SolutionFile

/-!
# Discovery

A path names a solution file, a project or a directory. A directory stands for the first solution
file in it, or else for all projects below it.
-/

namespace SolutionAtlas

/-- What a path comes to: its projects, and the directory that everything is relative to. -/
structure Layout where
  name : String
  path : String
  root : String
  projects : List ProjectEntry
  deriving Repr, DecidableEq

namespace Layout

def diskError {α : Type} (e : DiskError) : Except AnalysisError α :=
  .error (.io e.message)

def isSolutionFile (path : String) : Bool :=
  Path.hasExtension path "sln" || Path.hasExtension path "slnx"

/-- The directory a file lies in. -/
def directoryOf (path : String) : Except AnalysisError String :=
  match Path.parent? path with
  | some p => .ok p
  | none => .error (.invalidPath (path ++ " has no parent"))

/-- The layout of a solution file. -/
def ofSolutionFile (d : Disk) (path : String) : Except AnalysisError Layout := do
  match d.readText path with
  | .error e => diskError e
  | .ok text =>
    let root ← directoryOf path
    let projects :=
      if Path.hasExtension path "slnx" then SolutionFile.readMarkup text root
      else SolutionFile.read text root
    return ⟨Path.fileStem path, path, root, projects⟩

/-- The layout of a single project. -/
def ofManifest (path : String) : Except AnalysisError Layout := do
  return ⟨Path.fileStem path, path, ← directoryOf path, [⟨Path.fileStem path, path⟩]⟩

/-- The solution files directly in a folder, in order. -/
def solutionFilesIn (d : Disk) (folder : Place) : List String :=
  let names := (d.namesIn folder).filter fun n =>
    isSolutionFile n && d.isFile (Place.path (folder ++ [n]))
  (names.mergeSort fun a b => a ≤ b).map fun n => Place.path (folder ++ [n])

/-- The layout of a directory. -/
def ofDirectory (d : Disk) (folder : Place) : Except AnalysisError Layout :=
  let path := Place.path folder
  match solutionFilesIn d folder with
  | first :: _ => ofSolutionFile d first
  | [] =>
    match Scan.pathsWithExtension d true path "csproj" with
    | [] => .error (.invalidPath ("no solution or project files under " ++ path))
    | manifests =>
      .ok ⟨folder.getLast?.getD "solution", path, path,
        manifests.map fun m => ⟨Path.fileStem m, m⟩⟩

/-- The layout of what a path names. -/
def discover (d : Disk) (path : String) : Except AnalysisError Layout :=
  match d.locate path with
  | .error _ => .error (.invalidPath (path ++ " does not exist"))
  | .ok place =>
    let full := Place.path place
    if d.isFolder full then ofDirectory d place
    else if isSolutionFile full then ofSolutionFile d full
    else if Path.hasExtension full "csproj" then ofManifest full
    else .error (.invalidPath (full ++ " is not a .sln, .slnx, .csproj or directory"))

end Layout

/-- The file of editor settings in a directory. -/
def editorConfigIn? (d : Disk) (directory : String) : Option String :=
  let candidate := Path.join directory ".editorconfig"
  if d.isFile candidate then some candidate else none

/-- The nearest file of editor settings, in a directory or in one of the `parents` above it. -/
def findEditorConfig? (d : Disk) : Nat → String → Option String
  | 0, directory => editorConfigIn? d directory
  | parents + 1, directory =>
    match editorConfigIn? d directory, Path.parent? directory with
    | some path, _ => some path
    | none, some parent => findEditorConfig? d parents parent
    | none, none => none

end SolutionAtlas
