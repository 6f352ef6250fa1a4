-- SUMMARY: Arguments of tools: their types, and how they are read from JSON.
import SolutionAtlas.Json.Record
import SolutionAtlas.Text.Quoted

/-!
# Arguments

A request names its arguments in an object, or lists them in their order in an array. The members of
an object are looked at in the order of their names, so that the first bad value is the one that is
reported; only then is anything found to be missing.
-/

namespace SolutionAtlas

inductive ArgumentType where
  | text
  | count
  | flag
  | texts
  deriving Repr, DecidableEq

structure Argument where
  name : String
  type : ArgumentType
  required : Bool
  description : String
  deriving Repr, DecidableEq

/-- The value of an argument. -/
inductive ArgumentValue where
  | text (s : String)
  | count (n : Nat)
  | flag (b : Bool)
  | texts (items : List String)
  deriving Repr, DecidableEq

/-- The arguments of a request under its name. -/
structure RequestShape where
  name : String
  arguments : List Argument
  deriving Repr, DecidableEq

/-- What is wrong with the arguments of a request. -/
inductive ArgumentError where
  | missing (name : String)
  /-- A value of another type than the expected one. -/
  | wrongType (found : Json) (expected : String)
  /-- An integer that is no count. -/
  | negative (n : Int)
  | tooFew (given : Nat) (shape : RequestShape)
  | tooMany (given : Nat)

-- ---------------------------------------------------------------------------
-- Wording
-- ---------------------------------------------------------------------------

/-- A part of a message that stands between backticks. -/
def backticked (s : String) : String :=
  "\x60" ++ s ++ "\x60"

/-- The type of a value, with the value where it is short. -/
def describeValue : Json → String
  | .null => "null"
  | .bool b => "boolean " ++ backticked (if b then "true" else "false")
  | .int n => "integer " ++ backticked (toString n)
  | .real d => "floating point " ++ backticked (BinaryFormat.shortestDouble d).render
  | .str s => "string " ++ Text.quoted s
  | .arr _ => "sequence"
  | .obj _ => "map"

def ArgumentType.expected : ArgumentType → String
  | .text => "a string"
  | .count => "usize"
  | .flag => "a boolean"
  | .texts => "a sequence"

def RequestShape.expected (shape : RequestShape) : String :=
  "struct " ++ shape.name

/-- The number of arguments of a shape, in words. -/
def RequestShape.elements (shape : RequestShape) : String :=
  let n := shape.arguments.length
  toString n ++ (if n = 1 then " element" else " elements")

def ArgumentError.message : ArgumentError → String
  | .missing name => "missing field " ++ backticked name
  | .wrongType found expected => "invalid type: " ++ describeValue found ++ ", expected " ++ expected
  | .negative n =>
    "invalid value: integer " ++ backticked (toString n) ++ ", expected " ++
      ArgumentType.count.expected
  | .tooFew given shape =>
    "invalid length " ++ toString given ++ ", expected " ++ shape.expected ++ " with " ++
      shape.elements
  | .tooMany given =>
    "invalid length " ++ toString given ++ ", expected fewer elements in array"

-- ---------------------------------------------------------------------------
-- Reading
-- ---------------------------------------------------------------------------

/-- Reads a text. -/
def readText (j : Json) : Except ArgumentError String :=
  match j with
  | .str s => .ok s
  | j => .error (.wrongType j ArgumentType.text.expected)

def ArgumentType.read (type : ArgumentType) (j : Json) : Except ArgumentError ArgumentValue :=
  match type, j with
  | .text, j => (readText j).map .text
  | .count, .int n => if n < 0 then .error (.negative n) else .ok (.count n.toNat)
  | .flag, .bool b => .ok (.flag b)
  | .texts, .arr items => (items.mapM readText).map .texts
  | type, j => .error (.wrongType j type.expected)

/-- Reads the value of an argument. Null stands for an optional argument that is not given. -/
def Argument.read (a : Argument) (j : Json) : Except ArgumentError (Option ArgumentValue) :=
  match a.required, j with
  | false, .null => .ok none
  | _, j => (a.type.read j).map some

/-- The arguments that are given, by name. -/
abbrev Arguments := List (String × ArgumentValue)

/-- Adds an argument when it is given. -/
def addGiven (acc : Arguments) (a : Argument) (value : Option ArgumentValue) : Arguments :=
  match value with
  | some v => acc ++ [(a.name, v)]
  | none => acc

/-- Reads the members of an object, which come in the order of their names. -/
def readNamed (arguments : List Argument) (members : List (String × Json)) :
    Except ArgumentError Arguments :=
  members.foldlM (fun acc (key, j) =>
    match arguments.find? (·.name == key) with
    | none => .ok acc
    | some a => (a.read j).map (addGiven acc a)) []

/-- Reads the items of an array, one for each argument. -/
def readListed (shape : RequestShape) (items : List Json) : Except ArgumentError Arguments := do
  let given ← (shape.arguments.zip items).foldlM (fun acc (a, j) =>
    (a.read j).map (addGiven acc a)) ([] : Arguments)
  if items.length < shape.arguments.length then throw (.tooFew items.length shape)
  else if shape.arguments.length < items.length then throw (.tooMany items.length)
  else return given

/-- Reads the arguments of a request; null stands for none at all. -/
def RequestShape.read (shape : RequestShape) (j : Json) : Except ArgumentError Arguments :=
  match j with
  | .arr items => readListed shape items
  | .obj _ | .null => do
    let members := match j with
      | .obj members => members
      | _ => []
    let given ← readNamed shape.arguments members
    match shape.arguments.find? fun a => a.required && !members.any (·.1 == a.name) with
    | some a => throw (.missing a.name)
    | none => return given
  | j => .error (.wrongType j shape.expected)

namespace Arguments

def text? (as : Arguments) (name : String) : Option String :=
  match as.lookup name with
  | some (.text s) => some s
  | _ => none

/-- An argument that was required. -/
def text (as : Arguments) (name : String) : String :=
  (as.text? name).getD ""

def count? (as : Arguments) (name : String) : Option Nat :=
  match as.lookup name with
  | some (.count n) => some n
  | _ => none

def flag? (as : Arguments) (name : String) : Option Bool :=
  match as.lookup name with
  | some (.flag b) => some b
  | _ => none

def texts? (as : Arguments) (name : String) : Option (List String) :=
  match as.lookup name with
  | some (.texts items) => some items
  | _ => none

end Arguments

end SolutionAtlas
