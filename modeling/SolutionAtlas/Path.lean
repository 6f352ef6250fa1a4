-- SUMMARY: Paths as texts with slashes: their components, and paths relative to a root.
import SolutionAtlas.Text.Slice
import SolutionAtlas.Text.Lowercase

/-!
# Paths

A path is a text whose segments are divided by slashes. Empty segments and the segment `.` stand
for nothing, except that a relative path may begin with `.`. Two paths are the same when their
components are; a path keeps its own spelling until it is taken apart.
-/

namespace SolutionAtlas.Path

inductive Component where
  | root
  | current
  | parent
  | name (text : String)
  deriving Repr, DecidableEq

namespace Component

def text : Component → String
  | .root => "/"
  | .current => "."
  | .parent => ".."
  | .name s => s

/-- The component of a segment, `none` for a segment that stands for nothing. -/
def ofSegment? (s : String) : Option Component :=
  if s.isEmpty || s == "." then none
  else if s == ".." then some .parent
  else some (.name s)

end Component

def isAbsolute (path : String) : Bool :=
  Text.startsWith path "/"

/-- The components of a path, in order. -/
def components (path : String) : List Component :=
  match Text.split '/' path with
  | [] => []
  | first :: rest =>
    let start : List Component :=
      if isAbsolute path then [.root]
      else if first == "." then [.current]
      else (Component.ofSegment? first).toList
    start ++ rest.filterMap Component.ofSegment?

/-- The segment stands for nothing. -/
def isFiller (segment : String) : Bool :=
  segment.isEmpty || segment == "."

/-- The segments without the fillers at their end. -/
def dropFillersAtEnd (segments : List String) : List String :=
  (segments.reverse.dropWhile isFiller).reverse

/-- Puts a path together from its segments. -/
def ofSegments (segments : List String) : String :=
  "/".intercalate segments

/-- The path without fillers at its end. -/
def trimEnd (path : String) : String :=
  match Text.split '/' path with
  | [] => path
  | first :: rest =>
    match dropFillersAtEnd rest with
    | [] => if isAbsolute path then "/" else first
    | kept => ofSegments (first :: kept)

/-- The directory a path lies in, `none` for a root and for the empty path. -/
def parent? (path : String) : Option String :=
  match (components path).getLast? with
  | none => none
  | some .root => none
  | some _ =>
    match Text.split '/' (trimEnd path) with
    | [] => none
    | first :: rest =>
      match rest.dropLast with
      | [] => some (if rest.isEmpty then "" else if isAbsolute path then "/" else first)
      | kept => some (trimEnd (ofSegments (first :: kept)))

/-- The last component of a path, when it is a name. -/
def fileName? (path : String) : Option String :=
  match (components path).getLast? with
  | some (.name s) => some s
  | _ => none

/-- Splits a file name at its last point, unless that is its first character. -/
def splitExtension (name : String) : String × Option String :=
  let s := name.toList
  if s.contains '.' then
    let extension := Text.afterLast '.' s
    let stem := s.take (s.length - extension.length - 1)
    if stem.isEmpty then (name, none) else (String.ofList stem, some (String.ofList extension))
  else (name, none)

/-- The part of the file name behind its last point. -/
def extension? (path : String) : Option String :=
  (fileName? path).bind fun n => (splitExtension n).2

/-- The file name without its extension, empty when the path names no file. -/
def fileStem (path : String) : String :=
  ((fileName? path).map fun n => (splitExtension n).1).getD ""

/-- The path has the given extension, whatever its case. -/
def hasExtension (path extension : String) : Bool :=
  match extension? path with
  | some e => Text.eqIgnoreCase e extension
  | none => false

/-- The path that `more` names, seen from the directory `path`. -/
def join (path more : String) : String :=
  if isAbsolute more then more
  else if path.isEmpty || Text.endsWith path "/" then path ++ more
  else path ++ "/" ++ more

/-- The path of a list of components. -/
def ofComponents (cs : List Component) : String :=
  cs.foldl (fun acc c => join acc c.text) ""

/-- The plain spelling of a path, which is the same for paths with the same components. -/
def tidy (path : String) : String :=
  ofComponents (components path)

/-- The order of names of folders one after another; a folder comes before what it holds. -/
def namesLe (a b : List String) : Bool :=
  !List.lex b a fun x y => x < y

/-- Paths come in the order of their components. -/
def le (a b : String) : Bool :=
  namesLe ((components a).map Component.text) ((components b).map Component.text)

/-- The paths of a list in order, each once and as it is spelled last. -/
def sorted (paths : List String) : List String :=
  (paths.foldr (fun p acc => if acc.any (tidy · == tidy p) then acc else p :: acc) []).mergeSort le

/-- The number of leading components that two paths share. -/
def commonLength : List Component → List Component → Nat
  | a :: as, b :: bs => if a = b then commonLength as bs + 1 else 0
  | _, _ => 0

/-- Drops `n` components from the front of a list of segments, with the fillers around them. -/
def dropComponents : Nat → List String → List String
  | 0, segments => segments.dropWhile isFiller
  | _, [] => []
  | n + 1, s :: segments =>
    if isFiller s then dropComponents (n + 1) segments else dropComponents n segments

/-- The rest of `path` below `base`, when `base` is where it begins. -/
def strip? (base path : String) : Option String :=
  let bs := components base
  let ps := components path
  if commonLength bs ps < bs.length then none
  else if bs.isEmpty then some (trimEnd path)
  else
    let segments := dropFillersAtEnd (Text.split '/' path)
    /- The leading `.` of a relative path and the root are components without a segment of a name. -/
    let silent := if bs.head? == some .root || bs.head? == some .current then 1 else 0
    some (ofSegments (dropComponents (bs.length - silent) segments))

/-- The path from `base` to `target`: up to what they share, and down again. -/
def difference (target base : String) : String :=
  let ts := components target
  let bs := components base
  let common := commonLength ts bs
  ofComponents (List.replicate (bs.length - common) .parent ++ ts.drop common)

/-- A path as seen from a root, with slashes only. Absolute paths elsewhere begin with `..`. -/
def relativeTo (root path : String) : String :=
  if path.isEmpty then ""
  else
    let shown :=
      match strip? root path with
      | some rest => rest
      | none => if isAbsolute path then difference path root else path
    Text.forwardSlashes shown

/-- Drops every `./` at the front of a text. -/
def dropCurrent : List Char → List Char
  | '.' :: '/' :: s => dropCurrent s
  | s => s

/-- The path that a user's text names, seen from a root. -/
def resolveUnder (root raw : String) : String :=
  let text := Text.trim raw
  if isAbsolute text then text
  else join root (String.ofList (dropCurrent (Text.forwardSlashes text).toList))

/-- Adds a component to a path whose components are held in reverse: `..` takes the last one off
again, and the root has no parent to go to. -/
def normalizeStep (acc : List Component) (c : Component) : List Component :=
  match c with
  | .current => acc
  | .root => [.root]
  | .name _ => c :: acc
  | .parent =>
    match acc with
    | [] => [.parent]
    | .root :: _ => .parent :: acc
    | _ :: rest => rest

/-- A path without the segments `.` and `..`, as far as the text alone tells. -/
def normalize (path : String) : String :=
  ofComponents ((components path).foldl normalizeStep []).reverse

end SolutionAtlas.Path
