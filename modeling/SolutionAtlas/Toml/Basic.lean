-- SUMMARY: TOML values and the tables they are put into.
import SolutionAtlas.Json.Basic

/-!
# TOML values and tables

A document fills tables by dotted keys and by headers. A table remembers how it came about, because
that decides what may still be added: a header opens a table once, dotted keys extend only tables
that dotted keys made, and a value is never extended.
-/

namespace SolutionAtlas

inductive Toml where
  | string (s : String)
  | integer (n : Int)
  /-- A fraction; infinities and what is no number have no decimal. -/
  | fraction (d : Option Decimal)
  | bool (b : Bool)
  | dateTime (text : String)
  | array (items : List Toml)
  | table (members : List (String × Toml))
  deriving Repr

namespace Toml

/-- How a table came about. -/
inductive Origin where
  /-- By its own header. -/
  | header
  /-- On the way of a header to a table inside. -/
  | passed
  /-- By a dotted key. -/
  | dotted
  deriving Repr, DecidableEq

/-- What a document has said so far. -/
inductive Draft where
  | value (v : Toml)
  | table (origin : Origin) (members : List (String × Draft))
  /-- The tables of an array of tables, latest first. -/
  | tables (items : List (List (String × Draft)))

namespace Draft

abbrev Members := List (String × Draft)

/-- Sets the draft of a key. -/
def set (key : String) (d : Draft) : Members → Members
  | [] => [(key, d)]
  | (k, old) :: rest => if k == key then (k, d) :: rest else (k, old) :: set key d rest

/-- Changes the table that a path leads to, where `f` gets its origin and members. Tables that are
missing on the way are made; `none` when the way is barred. -/
def descend (making : Origin) (f : Origin → Members → Option Members) :
    List String → Origin → Members → Option Members
  | [], origin, members => f origin members
  | key :: path, _, members =>
    match members.lookup key with
    | none => do return set key (.table making (← descend making f path making [])) members
    | some (.value _) => none
    | some (.tables []) => none
    | some (.tables (last :: earlier)) => do
      return set key (.tables ((← descend making f path .header last) :: earlier)) members
    | some (.table origin inner) =>
      if making == .dotted && origin == .header then none
      else do return set key (.table origin (← descend making f path origin inner)) members

/-- Adds a value to a table under a dotted key, where `path` leads to the last part `key`. -/
def addValue (path : List String) (key : String) (v : Toml) : Members → Option Members :=
  descend .dotted (fun origin members =>
    if (origin == .dotted) == path.isEmpty || (members.lookup key).isSome then none
    else some (members ++ [(key, .value v)])) path .header

/-- Adds a value to the table of a header. -/
def addUnder (header : List String) (path : List String) (key : String) (v : Toml) :
    Members → Option Members :=
  descend .passed (fun _ members => addValue path key v members) header .header

/-- Opens the table of a header, which may already hold other tables. -/
def openTable (path : List String) (key : String) : Members → Option Members :=
  descend .passed (fun _ members =>
    match members.lookup key with
    | none => some (members ++ [(key, .table .header [])])
    | some (.table .passed inner) => some (set key (.table .header inner) members)
    | some _ => none) path .header

/-- Opens a further table of an array of tables. -/
def openTables (path : List String) (key : String) : Members → Option Members :=
  descend .passed (fun _ members =>
    match members.lookup key with
    | none => some (members ++ [(key, .tables [[]])])
    | some (.tables items) => some (set key (.tables ([] :: items)) members)
    | some _ => none) path .header

mutual

def toToml : Draft → Toml
  | .value v => v
  | .table _ members => .table (membersToToml members)
  | .tables items => .array (tablesToToml items []).reverse

def membersToToml : List (String × Draft) → List (String × Toml)
  | [] => []
  | (k, d) :: rest => (k, toToml d) :: membersToToml rest

def tablesToToml : List (List (String × Draft)) → List Toml → List Toml
  | [], acc => acc
  | t :: rest, acc => tablesToToml rest (.table (membersToToml t) :: acc)

end

end Draft

-- ---------------------------------------------------------------------------
-- As JSON
-- ---------------------------------------------------------------------------

/-- The key under which a date stands when it is looked at as a table. -/
def dateTimeKey : String := "$__toml_private_datetime"

mutual

/-- The JSON value of the same shape. What is no number becomes the fraction zero. -/
def toJson : Toml → Json
  | .string s => .str s
  | .integer n => .int n
  | .fraction d => .real (d.getD ⟨false, 0, 0⟩)
  | .bool b => .bool b
  | .dateTime text => .obj [(dateTimeKey, .str text)]
  | .array items => .arr (itemsToJson items)
  | .table members => .obj (membersToJson members)

def itemsToJson : List Toml → List Json
  | [] => []
  | v :: rest => toJson v :: itemsToJson rest

def membersToJson : List (String × Toml) → List (String × Json)
  | [] => []
  | (k, v) :: rest => (k, toJson v) :: membersToJson rest

end

end Toml

end SolutionAtlas
