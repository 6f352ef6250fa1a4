-- SUMMARY: A disk as a value: files and folders by their places.
import SolutionAtlas.Path

/-!
# Disks

A place is the list of names on the way from the root. A disk holds the contents of the files and
the places of the folders; the root is always a folder, and the folder of everything it holds is a
folder. A path is looked up name by name, as it is written.

A disk has no symbolic links: every name in a folder is the name of one file or one folder, so a path
that leads somewhere always leads to the place that its names spell. Nor is there a working
directory: only absolute paths name something.
-/

namespace SolutionAtlas

/-- The names on the way from the root. -/
abbrev Place := List String

/-- The absolute path of a place. -/
def Place.path (p : Place) : String :=
  "/" ++ "/".intercalate p

structure FileData where
  bytes : ByteArray
  /-- The time of the last change, in milliseconds since 1970. -/
  modifiedMs : Nat

/-- Why an operation on a disk fails. -/
inductive DiskError where
  | notFound
  | isFolder
  | notFolder
  | alreadyThere
  | notText
  deriving Repr, DecidableEq

def DiskError.message : DiskError → String
  | .notFound => "No such file or directory (os error 2)"
  | .isFolder => "Is a directory (os error 21)"
  | .notFolder => "Not a directory (os error 20)"
  | .alreadyThere => "File exists (os error 17)"
  | .notText => "stream did not contain valid UTF-8"

structure Disk where
  files : List (Place × FileData) := []
  folders : List (Place × Nat) := []

/-- What a place holds. -/
inductive Entry where
  | file (data : FileData)
  | folder (modifiedMs : Nat)

namespace Entry

def isFolder : Entry → Bool
  | .folder _ => true
  | .file _ => false

def modifiedMs : Entry → Nat
  | .folder t => t
  | .file data => data.modifiedMs

/-- The size in bytes; that of a folder is the size of a block. -/
def size : Entry → Nat
  | .folder _ => 4096
  | .file data => data.bytes.size

end Entry

namespace Disk

-- ---------------------------------------------------------------------------
-- Looking
-- ---------------------------------------------------------------------------

def entryAt? (d : Disk) (p : Place) : Option Entry :=
  match d.files.lookup p with
  | some data => some (.file data)
  | none => if p.isEmpty then some (.folder 0) else (d.folders.lookup p).map .folder

/-- Goes on from a place by the segments of a path. -/
def walk (d : Disk) : Place → List String → Except DiskError Place
  | p, [] => if (d.entryAt? p).isSome then .ok p else .error .notFound
  | p, s :: rest =>
    match d.entryAt? p with
    | none => .error .notFound
    | some (.file _) => .error .notFolder
    | some (.folder _) =>
      if Path.isFiller s then walk d p rest
      else if s == ".." then walk d p.dropLast rest
      else walk d (p ++ [s]) rest

/-- The place that a path names, when there is something. No link is followed on the way, and a relative
path names nothing, since there is no directory to start from. -/
def locate (d : Disk) (path : String) : Except DiskError Place :=
  if Path.isAbsolute path then d.walk [] ((Text.split '/' path).drop 1) else .error .notFound

/-- What a path names. -/
def find (d : Disk) (path : String) : Except DiskError Entry := do
  let p ← d.locate path
  match d.entryAt? p with
  | some e => return e
  | none => throw .notFound

/-- The path names something. -/
def holds (d : Disk) (path : String) : Bool :=
  (d.find path).toBool

def isFile (d : Disk) (path : String) : Bool :=
  match d.find path with
  | .ok (.file _) => true
  | _ => false

def isFolder (d : Disk) (path : String) : Bool :=
  match d.find path with
  | .ok (.folder _) => true
  | _ => false

/-- The absolute path, without `.` and `..`, of what a path names. Without symbolic links this is the path
itself with its segments followed, so what a path names may come and go, but never move. -/
def canonical (d : Disk) (path : String) : Except DiskError String :=
  (d.locate path).map Place.path

def readBytes (d : Disk) (path : String) : Except DiskError ByteArray := do
  match ← d.find path with
  | .file data => return data.bytes
  | .folder _ => throw .isFolder

def readText (d : Disk) (path : String) : Except DiskError String := do
  match String.fromUTF8? (← d.readBytes path) with
  | some text => return text
  | none => throw .notText

/-- The time of the last change of what a path names. -/
def modifiedMs (d : Disk) (path : String) : Except DiskError Nat :=
  (d.find path).map Entry.modifiedMs

/-- The names of what lies directly in a folder. -/
def namesIn (d : Disk) (folder : Place) : List String :=
  (d.files.map (·.1) ++ d.folders.map (·.1)).filterMap fun p =>
    if p.dropLast == folder then p.getLast? else none

-- ---------------------------------------------------------------------------
-- Changing
-- ---------------------------------------------------------------------------

/-- The places on the way to a place, the nearest to the root first. -/
def above (p : Place) : List Place :=
  (List.range p.length).map fun n => p.take n

/-- Makes a folder at a place, with those above it. -/
def addFolder (d : Disk) (now : Nat) (p : Place) : Disk :=
  (above p ++ [p]).foldl (fun d q =>
    if (d.entryAt? q).isSome then d else { d with folders := d.folders ++ [(q, now)] }) d

/-- The place that a path would name, whatever there is. -/
def wouldBe (path : String) : Place :=
  (Path.components (Path.normalize path)).filterMap fun c =>
    match c with
    | .name s => some s
    | _ => none

/-- Makes the folder of a path, with those above it, unless they are there. -/
def makeFolder (d : Disk) (now : Nat) (path : String) : Except DiskError Disk :=
  let p := wouldBe path
  match d.entryAt? p with
  | some (.folder _) => .ok d
  | some (.file _) => .error .alreadyThere
  | none =>
    if (above p).any fun q => (d.files.lookup q).isSome then .error .notFolder
    else .ok (d.addFolder now p)

/-- Sets the contents of the file of a path, in folders that are made if need be. -/
def write (d : Disk) (now : Nat) (path : String) (data : FileData) : Except DiskError Disk :=
  let p := wouldBe path
  match d.entryAt? p with
  | some (.folder _) => .error .isFolder
  | _ =>
    if (above p).any fun q => (d.files.lookup q).isSome then .error .notFolder
    else
      let d := d.addFolder now p.dropLast
      .ok { d with files := d.files.filter (·.1 != p) ++ [(p, data)] }

/-- Takes away what a path names, and all that lies in it. -/
def remove (d : Disk) (path : String) : Except DiskError Disk := do
  let p ← d.locate path
  return {
    files := d.files.filter fun e => !p.isPrefixOf e.1
    folders := d.folders.filter fun e => !p.isPrefixOf e.1 }

end Disk

end SolutionAtlas
