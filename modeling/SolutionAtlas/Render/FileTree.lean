-- SUMMARY: A set of paths drawn as a tree of folders and files.
import SolutionAtlas.Table
import SolutionAtlas.Text.Lowercase
import SolutionAtlas.Text.Slice

/-!
# File trees

Paths are taken apart into segments and put into a tree of folders, one after the other. A folder shows
its folders and then its files, each group sorted without regard to case; a path may name a folder and
a file of one name. Deep and crowded folders are cut short, and say so.
-/

namespace SolutionAtlas.FileTree

structure Options where
  maxDepth : Nat := 4
  maxEntries : Nat := 30
  /-- Paths that contain one of these, whatever its case, are left out. -/
  excludePatterns : List String := []
  /-- A line in front of the tree. -/
  header : Option String := none

/-- The segments of a path, without those that stand for nothing. -/
def segments (path : String) : List String :=
  (Text.split '/' (Text.forwardSlashes (Text.trim path))).filter fun s => !s.isEmpty && s != "."

/-- The path contains one of the patterns. -/
def isExcluded (patterns : List String) (path : String) : Bool :=
  let shown := Text.lower (Text.forwardSlashes (Text.trim path))
  (patterns.filterMap fun p => Text.nonBlank? (Text.lower (Text.trim p))).any fun p =>
    Text.occursIn p shown

/-- The order in which names are shown: without regard to case, then with. -/
def nameLe (a b : String) : Bool :=
  let x := Text.lower a
  let y := Text.lower b
  if x = y then a ≤ b else x ≤ y

-- ---------------------------------------------------------------------------
-- Folders
-- ---------------------------------------------------------------------------

/-- What lies in a folder: folders by their names, and the names of files. -/
structure Folder where
  folders : List (String × Folder) := []
  files : Table Unit := []

/-- What a folder shows on one line. -/
inductive Folder.Item where
  | folder (name : String) (content : Folder)
  | file (name : String)

namespace Folder

def isEmpty (f : Folder) : Bool :=
  f.folders.isEmpty && f.files.isEmpty

/-- Puts the file of a path into a folder, with the folders on the way to it. -/
def insert : Folder → List String → Folder
  | f, [] => f
  | f, [name] => { f with files := f.files.insert name () }
  | f, name :: next :: rest =>
    let content := ((Table.get? name f.folders).getD {}).insert (next :: rest)
    { f with folders := Table.insert name content f.folders }

/-- The items of a folder: folders first. -/
def items (f : Folder) : List Item :=
  let folders := f.folders.mergeSort fun a b => nameLe a.1 b.1
  folders.map (fun (name, content) => .folder name content) ++ (f.files.keys.mergeSort nameLe).map .file

end Folder

-- ---------------------------------------------------------------------------
-- Lines
-- ---------------------------------------------------------------------------

def branch : String := "├── "
def lastBranch : String := "└── "
def depthMarker : String := "... (depth limit reached)"

/-- The lines of a folder. `levels` is the number of levels that may still be shown, and `indent` stands
in front of every line. -/
def Folder.lines (limit : Nat) : Nat → String → Folder → List String
  | 0, indent, _ => [indent ++ lastBranch ++ depthMarker]
  | levels + 1, indent, f =>
    let all := f.items
    let shown := all.take limit
    let hidden := all.length - limit
    let count := shown.length + (if hidden > 0 then 1 else 0)
    let drawn := shown.zipIdx.flatMap fun (item, i) =>
      let isLast := i + 1 == count
      let lead := indent ++ (if isLast then lastBranch else branch)
      match item with
      | .file name => [lead ++ name]
      | .folder name content =>
        (lead ++ name ++ "/") ::
          Folder.lines limit levels (indent ++ (if isLast then "    " else "│   ")) content
    drawn ++
      (if hidden > 0 then [indent ++ lastBranch ++ "... (" ++ toString hidden ++ " more items)"] else [])

/-- The tree of some paths, in a fenced block. -/
def render (paths : List String) (options : Options) : String :=
  let kept := (paths.filter (!isExcluded options.excludePatterns ·)).map segments
  let root := kept.foldl Folder.insert {}
  let body :=
    if root.isEmpty then ["(no files)"]
    else root.lines (max 1 options.maxEntries) (max 1 options.maxDepth) ""
  let header :=
    match options.header with
    | some h => if h.isEmpty then [] else [h]
    | none => []
  let fence := "\x60\x60\x60"
  "\n".intercalate (header ++ [fence] ++ body ++ [fence])

end SolutionAtlas.FileTree
