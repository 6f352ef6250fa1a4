-- SUMMARY: The files of a project: everything under its root that is not left out.
import SolutionAtlas.Disk.Ignore

/-!
# Scanning

A scan lists the files that a walk finds below a root. It asks the walk not to go into the folders of
build output, nor into those with a manifest, which belong to a project of their own. The walk itself
leaves out what is hidden or ignored. The root is always gone into.
-/

namespace SolutionAtlas.Scan

/-- Folders of build output and of tools. -/
def skippedFolders : List String :=
  ["bin", "obj", "node_modules", "packages", "TestResults"]

/-- The name of a manifest. -/
def isManifestName (name : String) : Bool :=
  Path.hasExtension name "csproj"

/-- A manifest lies directly in a folder. -/
def holdsManifest (d : Disk) (folder : Place) : Bool :=
  (d.namesIn folder).any isManifestName

/-- The entry at a place is shown: a rule keeps it, or no rule ignores it and it is not hidden. -/
def isShown (files : List IgnoreFile) (p : Place) (isFolder : Bool) : Bool :=
  match IgnoreFile.keepsByAll? files p isFolder with
  | some keeps => keeps
  | none => !Text.startsWith (p.getLast?.getD "") "."

/-- A scan admits a folder below its root. -/
def admits (d : Disk) (acrossProjects : Bool) (p : Place) : Bool :=
  !skippedFolders.any (Text.eqIgnoreCase (p.getLast?.getD "")) && (acrossProjects || !holdsManifest d p)

/-- The folders strictly between a root and a place below it. -/
def between (root p : Place) : List Place :=
  ((List.range p.length).drop (root.length + 1)).map fun n => p.take n

/-- A walk of a disk: the places of the files that it finds below a root. It is given a test of the
folders that it may go into. -/
abbrev Walk := Disk → (Place → Bool) → Place → List Place

/-- A walk that leaves out what is not shown finds the file at a place. -/
def finds (files : List IgnoreFile) (admits : Place → Bool) (root p : Place) : Bool :=
  root.length < p.length && root.isPrefixOf p && isShown files p false &&
    (between root p).all fun q => isShown files q true && admits q

/-- The walk that leaves out what is hidden or ignored. -/
def shownFiles : Walk := fun d admits root =>
  (d.files.map (·.1)).filter (finds (IgnoreFile.all d) admits root)

/-- The files that a scan of a root lists, by their names on the way from the root, in order. -/
def placesBelow (walk : Walk) (d : Disk) (acrossProjects : Bool) (root : Place) : List Place :=
  ((walk d (admits d acrossProjects) root).map (·.drop root.length)).mergeSort Path.namesLe

/-- The paths that a scan of a root lists, which begin with the root as it is written. A file is the
root of itself. -/
def pathsBy (walk : Walk) (d : Disk) (acrossProjects : Bool) (root : String) : List String :=
  match d.locate root with
  | .error _ => []
  | .ok p =>
    match d.entryAt? p with
    | some (.file _) => [root]
    | _ => (placesBelow walk d acrossProjects p).map fun names => Path.join root ("/".intercalate names)

@[inherit_doc pathsBy]
def paths (d : Disk) (acrossProjects : Bool) (root : String) : List String :=
  pathsBy shownFiles d acrossProjects root

/-- The listed paths with a given extension, whatever its case. -/
def pathsWithExtension (d : Disk) (acrossProjects : Bool) (root extension : String) : List String :=
  (paths d acrossProjects root).filter (Path.hasExtension · extension)

end SolutionAtlas.Scan
