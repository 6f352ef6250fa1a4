-- SUMMARY: The symbol index: entries by key, and keys by name.
import SolutionAtlas.Index.Entry
import SolutionAtlas.Table

/-!
# Symbol index

Two tables: the entries by key, and for each lower-case name the ascending list of the keys of the
entries that bear it. A name without entries has no bucket.
-/

namespace SolutionAtlas

structure SymbolIndex where
  byKey : Table IndexEntry := []
  byName : Table (List String) := []
  deriving Repr, DecidableEq

namespace SymbolIndex

def empty : SymbolIndex := {}

/-- Puts a key in its place among ascending keys. -/
def insertKey (key : String) : List String → List String
  | [] => [key]
  | k :: ks => if key < k then key :: k :: ks else if key = k then k :: ks else k :: insertKey key ks

/-- Enters a key under a name. -/
def enterName (bucket key : String) (names : Table (List String)) : Table (List String) :=
  names.insert bucket (insertKey key ((names.get? bucket).getD []))

/-- Takes a key out from under a name, and the name with its last key. -/
def pruneName (bucket key : String) (names : Table (List String)) : Table (List String) :=
  match names.get? bucket with
  | none => names
  | some keys =>
    let kept := keys.filter (· != key)
    if kept.isEmpty then names.erase bucket else names.insert bucket kept

/-- The names once the key of a new entry is taken out from under the name it had before. -/
def renamed (x : SymbolIndex) (e : IndexEntry) : Table (List String) :=
  match x.byKey.get? e.key with
  | some old => if old.bucket = e.bucket then x.byName else pruneName old.bucket e.key x.byName
  | none => x.byName

/-- Sets the entry of its key. -/
def upsert (x : SymbolIndex) (e : IndexEntry) : SymbolIndex :=
  { byKey := x.byKey.insert e.key e, byName := enterName e.bucket e.key (x.renamed e) }

def contains (x : SymbolIndex) (key : String) : Bool :=
  x.byKey.contains key

/-- Adds an entry unless its key is taken, and says whether it did. -/
def add (x : SymbolIndex) (e : IndexEntry) : Bool × SymbolIndex :=
  if x.contains e.key then (false, x) else (true, x.upsert e)

/-- Adds entries in order, and says of each whether it was added. -/
def addAll (x : SymbolIndex) : List IndexEntry → List Bool × SymbolIndex
  | [] => ([], x)
  | e :: es =>
    let (added, y) := x.add e
    let (flags, z) := addAll y es
    (added :: flags, z)

/-- Takes an entry out. -/
def remove (x : SymbolIndex) (e : IndexEntry) : SymbolIndex :=
  { byKey := x.byKey.erase e.key, byName := pruneName e.bucket e.key x.byName }

/-- Takes out every entry declared in a file, and counts them. -/
def invalidate (x : SymbolIndex) (file : String) : Nat × SymbolIndex :=
  let doomed := x.byKey.values.filter (·.symbol.isDeclaredIn file)
  (doomed.length, doomed.foldl remove x)

def get? (x : SymbolIndex) (key : String) : Option IndexEntry :=
  x.byKey.get? key

/-- The keys under a lower-case name. -/
def bucketKeys (x : SymbolIndex) (bucket : String) : List String :=
  (x.byName.get? bucket).getD []

/-- The entries of a name, whatever its case, in ascending order of keys. -/
def byNameOf (x : SymbolIndex) (name : String) : List IndexEntry :=
  (x.bucketKeys (Text.lower name)).filterMap x.get?

/-- All entries, in ascending order of keys. -/
def snapshot (x : SymbolIndex) : List IndexEntry :=
  x.byKey.values

def size (x : SymbolIndex) : Nat :=
  x.byKey.length

def isEmpty (x : SymbolIndex) : Bool :=
  x.byKey.isEmpty

def bucketCount (x : SymbolIndex) : Nat :=
  x.byName.length

/-- Takes out everything. -/
def clear (_ : SymbolIndex) : SymbolIndex :=
  empty

/-- By name first, then by key. -/
def nameThenKey (a b : IndexEntry) : Bool :=
  if a.symbol.name = b.symbol.name then a.key ≤ b.key else a.symbol.name ≤ b.symbol.name

/-- The first entries whose name is or contains a text, whatever its case: those with exactly that
name come first, and each group is in order of names and keys. -/
def search (x : SymbolIndex) (text : String) (limit : Nat) : List IndexEntry :=
  let needle := Text.lower (Text.trim text)
  if needle.isEmpty || limit == 0 then []
  else
    let exact := x.bucketKeys needle
    let partly := (x.byName.filter fun b => b.1 != needle && Text.occursIn needle b.1).flatMap (·.2)
    let resolve (keys : List String) := (keys.filterMap x.get?).mergeSort nameThenKey
    (resolve exact ++ resolve partly).take limit

/-- The entries of a solution: of every type, and behind it of its members. -/
def entriesOf (s : Solution) : List IndexEntry :=
  s.types.flatMap fun (p, n, t) => IndexEntry.allOfType p.projectFilePath n.name t

/-- Adds every type of a solution and its members, and counts what was added. -/
def addSolution (x : SymbolIndex) (s : Solution) : Nat × SymbolIndex :=
  let (flags, y) := x.addAll (entriesOf s)
  (flags.countP id, y)

end SymbolIndex

end SolutionAtlas
