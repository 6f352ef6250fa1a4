-- SUMMARY: Analyzed solutions kept on disk, and when they still hold.
import SolutionAtlas.Analysis.Config
import SolutionAtlas.Digest.Sha256
import SolutionAtlas.Disk.Scan
import SolutionAtlas.Model.Codec

/-!
# Cached solutions

A cache is a directory with one entry for each path that was analyzed. An entry records the source
files that the solution was made from. It holds as long as it is young enough, the same source files
are there, and neither they nor the manifests have changed since.
-/

namespace SolutionAtlas

structure SolutionCache where
  dir : String
  /-- How long an entry is good for. -/
  ttlSecs : Nat
  deriving Repr, DecidableEq

structure CachedSolution where
  schemaVersion : Nat
  createdMs : Nat
  sourcePath : String
  /-- The source files that were there, in order. -/
  inputFiles : List String
  solution : Solution
  deriving Repr, DecidableEq

open Json in
instance : JsonForm CachedSolution where
  toJson c := record [
    member "schema_version" c.schemaVersion, member "created_at_unix_ms" c.createdMs,
    member "source_path" c.sourcePath, member "input_files" c.inputFiles,
    member "solution" c.solution]
  ofJson? j := do
    let f ← fields? ["schema_version", "created_at_unix_ms", "source_path", "input_files",
      "solution"] j
    return {
      schemaVersion := ← f.word32 "schema_version"
      createdMs := ← f.required "created_at_unix_ms"
      sourcePath := ← f.required "source_path"
      inputFiles := ← f.required "input_files"
      solution := ← f.required "solution" }

namespace CachedSolution

/-- Entries of another version do not hold. -/
def currentVersion : Nat := 2

/-- Reads the contents of an entry. -/
def read? (bytes : ByteArray) : Option CachedSolution := do
  Json.as? CachedSolution (← Json.read? (← String.fromUTF8? bytes))

/-- The contents of an entry. -/
def write (c : CachedSolution) : ByteArray :=
  (toJson c).render.toUTF8

end CachedSolution

-- ---------------------------------------------------------------------------
-- Inputs
-- ---------------------------------------------------------------------------

/-- The source files of a solution, and the latest change among them and the manifests. -/
structure CacheInputs where
  files : List String
  newestMs : Nat
  deriving Repr, DecidableEq

namespace CacheInputs

/-- The files that a solution is declared in: the path it was analyzed from, unless that is a
directory, and the manifests of its projects. -/
def manifests (d : Disk) (path : String) (s : Solution) : List String :=
  (if d.isFolder path then [] else [path]) ++ s.projects.map (·.projectFilePath)

/-- The source files below the root directories of the projects. -/
def sources (d : Disk) (s : Solution) : List String :=
  (s.projects.flatMap (·.rootDirectories)).flatMap fun root =>
    Scan.pathsWithExtension d false root "cs"

/-- When a manifest has changed; one that is missing counts as changed after everything. -/
def manifestChangedMs (d : Disk) (path : String) : Nat :=
  (d.modifiedMs path).toOption.getD maxWord64

/-- When a source file has changed. -/
def sourceChangedMs (d : Disk) (path : String) : Nat :=
  (d.modifiedMs path).toOption.getD 0

/-- The inputs of a solution as they are now. -/
def scan (d : Disk) (path : String) (s : Solution) : CacheInputs :=
  let sources := sources d s
  { files := (firstOfEach id (sources.map Text.forwardSlashes)).mergeSort fun a b => a ≤ b
    newestMs := ((manifests d path s).map (manifestChangedMs d) ++
      sources.map (sourceChangedMs d)).foldl max 0 }

end CacheInputs

-- ---------------------------------------------------------------------------
-- Entries
-- ---------------------------------------------------------------------------

namespace SolutionCache

/-- The spelling of a path by which its entry is known: its canonical path, or the path as it is spelled
where it has none. -/
def sourcePath (d : Disk) (path : String) : String :=
  Text.forwardSlashes ((d.canonical path).toOption.getD path)

/-- The file of the entry for a path. -/
def entryPath (c : SolutionCache) (d : Disk) (path : String) : String :=
  let digest := Sha256.hexDigest (sourcePath d path).toUTF8.data.toList
  Path.join c.dir (String.ofList (digest.toList.take 16) ++ ".json")

/-- An entry still holds. -/
def isFresh (c : SolutionCache) (d : Disk) (now : Nat) (path : String) (e : CachedSolution) : Bool :=
  let inputs := CacheInputs.scan d path e.solution
  e.schemaVersion == CachedSolution.currentVersion && now - e.createdMs ≤ c.ttlSecs * 1000 &&
    inputs.files == e.inputFiles && inputs.newestMs ≤ e.createdMs

/-- The solution kept for a path, when there is one and it still holds. -/
def load (c : SolutionCache) (d : Disk) (now : Nat) (path : String) :
    Except AnalysisError (Option Solution) :=
  let file := c.entryPath d path
  if d.holds file then
    match d.readBytes file with
    | .error e => .error (.io e.message)
    | .ok bytes =>
      .ok (((CachedSolution.read? bytes).filter (c.isFresh d now path)).map (·.solution))
  else .ok none

/-- The entry of a solution that is kept now. -/
def entryNow (d : Disk) (now : Nat) (path : String) (s : Solution) : CachedSolution :=
  { schemaVersion := CachedSolution.currentVersion
    createdMs := now
    sourcePath := sourcePath d path
    inputFiles := (CacheInputs.scan d path s).files
    solution := s }

/-- Keeps a solution for a path. -/
def store (c : SolutionCache) (d : Disk) (now : Nat) (path : String) (s : Solution) :
    Except AnalysisError Disk :=
  let kept : Except DiskError Disk := do
    let d ← d.makeFolder now c.dir
    d.write now (c.entryPath d path) ⟨(entryNow d now path s).write, now⟩
  kept.mapError fun e => .io e.message

/-- Forgets what is kept for a path, and says whether there was something. -/
def invalidate (c : SolutionCache) (d : Disk) (path : String) : Except AnalysisError (Bool × Disk) :=
  let file := c.entryPath d path
  match d.find file with
  | .ok (.file _) => (d.remove file).map (fun d => (true, d)) |>.mapError fun e => .io e.message
  | .ok (.folder _) => .error (.io DiskError.isFolder.message)
  | .error .notFound => .ok (false, d)
  | .error e => .error (.io e.message)

end SolutionCache

namespace CacheConfig

/-- The directory of the cache; without one in the settings, one among the temporary files. -/
def resolvedDir (c : CacheConfig) : String :=
  c.dir.getD (Path.join "/tmp" cacheDirName)

end CacheConfig

end SolutionAtlas
