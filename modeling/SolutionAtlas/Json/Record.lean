-- SUMMARY: Writing and reading of records as JSON.
import SolutionAtlas.Json.Reader

/-!
# Records

`JsonForm` is the class of types that are written as JSON and read back. A record is written as an
object. It is read from an object by the names of its fields, whatever else the object holds, or
from an array by their order.
-/

namespace SolutionAtlas

class JsonForm (α : Type) where
  toJson : α → Json
  ofJson? : Json → Option α

export JsonForm (toJson)

/-- Reads a value of a given type. -/
def Json.as? (α : Type) [JsonForm α] (j : Json) : Option α :=
  JsonForm.ofJson? j

/-- The largest natural number that 64 bits hold. -/
def maxWord64 : Nat := 0xFFFFFFFFFFFFFFFF

/-- The largest natural number that 32 bits hold. -/
def maxWord32 : Nat := 0xFFFFFFFF

namespace JsonForm

instance : JsonForm String where
  toJson := .str
  ofJson?
    | .str s => some s
    | _ => none

instance : JsonForm Bool where
  toJson := .bool
  ofJson?
    | .bool b => some b
    | _ => none

/-- Numbers of up to 64 bits. -/
instance : JsonForm Nat where
  toJson n := .int n
  ofJson?
    | .int n => if 0 ≤ n ∧ n.toNat ≤ maxWord64 then some n.toNat else none
    | _ => none

instance {α : Type} [JsonForm α] : JsonForm (List α) where
  toJson xs := .arr (xs.map JsonForm.toJson)
  ofJson?
    | .arr items => items.mapM JsonForm.ofJson?
    | _ => none

instance {α : Type} [JsonForm α] : JsonForm (Option α) where
  toJson
    | some x => JsonForm.toJson x
    | none => .null
  ofJson?
    | .null => some none
    | j => (JsonForm.ofJson? j).map some

end JsonForm

namespace Json

-- ---------------------------------------------------------------------------
-- Writing
-- ---------------------------------------------------------------------------

/-- A member that is always written. -/
def member {α : Type} [JsonForm α] (key : String) (x : α) : List (String × Json) :=
  [(key, toJson x)]

/-- A member that is written when there is a value. -/
def memberIfSome {α : Type} [JsonForm α] (key : String) : Option α → List (String × Json)
  | some x => [(key, toJson x)]
  | none => []

/-- A member that is written when the list is not empty. -/
def memberIfAny {α : Type} [JsonForm α] (key : String) (xs : List α) : List (String × Json) :=
  if xs.isEmpty then [] else [(key, toJson xs)]

/-- An object of groups of members. -/
def record (groups : List (List (String × Json))) : Json :=
  .obj groups.flatten

-- ---------------------------------------------------------------------------
-- Reading
-- ---------------------------------------------------------------------------

/-- The fields of a record that is being read, by name. -/
abbrev Fields := String → Option Json

/-- The fields of an object. -/
def objectFields? : Json → Option Fields
  | .obj members => some fun key => members.lookup key
  | _ => none

/-- The fields of a record whose field names are given in order. -/
def fields? (names : List String) : Json → Option Fields
  | .obj members => some fun key => members.lookup key
  | .arr items =>
    if items.length ≤ names.length then some fun key => (names.zip items).lookup key else none
  | _ => none

namespace Fields

/-- A field that must be there. -/
def required {α : Type} [JsonForm α] (f : Fields) (key : String) : Option α :=
  (f key).bind JsonForm.ofJson?

/-- A field with a value for the case that it is missing. -/
def orElse {α : Type} [JsonForm α] (f : Fields) (key : String) (default : α) : Option α :=
  match f key with
  | some j => JsonForm.ofJson? j
  | none => some default

/-- A field that may be missing or null. -/
def optional {α : Type} [JsonForm α] (f : Fields) (key : String) : Option (Option α) :=
  f.orElse key none

/-- A field that holds a number of 32 bits. -/
def word32 (f : Fields) (key : String) : Option Nat := do
  let n : Nat ← f.required key
  if n ≤ maxWord32 then some n else none

end Fields

/-- Reads one of a list of values by its name. A name may also be the key of an object that holds
null. -/
def named? {α : Type} (all : List α) (name : α → String) : Json → Option α
  | .str s => all.find? fun x => name x == s
  | .obj [(s, .null)] => all.find? fun x => name x == s
  | _ => none

end Json

end SolutionAtlas
