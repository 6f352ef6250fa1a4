-- SUMMARY: JSON values, their writer and the order of their object keys.
import SolutionAtlas.Decimal.Shortest
import SolutionAtlas.Table

/-!
# JSON values

Objects list their members; `Json.ofMembers` brings them into ascending order of keys and lets the
last of several members with one key win.
-/

namespace SolutionAtlas

inductive Json where
  | null
  | bool (b : Bool)
  | int (n : Int)
  | real (d : Decimal)
  | str (s : String)
  | arr (items : List Json)
  | obj (members : List (String × Json))
  deriving Repr

namespace Json

instance : Inhabited Json := ⟨.null⟩

def nat (n : Nat) : Json := .int n

/-- The object of some members. -/
def ofMembers (members : List (String × Json)) : Json :=
  .obj (members.foldl (fun acc m => Table.insert m.1 m.2 acc) [])

/-- The value of a member of an object. -/
def get? (key : String) : Json → Option Json
  | .obj members => members.lookup key
  | _ => none

-- ---------------------------------------------------------------------------
-- Writing
-- ---------------------------------------------------------------------------

/-- Four hexadecimal digits. -/
def hex4 (n : Nat) : String :=
  String.ofList (List.replicate (4 - (Nat.toDigits 16 n).length) '0' ++ Nat.toDigits 16 n)

/-- Writes one character of a string behind `acc`. -/
def pushChar (acc : String) (c : Char) : String :=
  match c with
  | '"' => acc ++ "\\\""
  | '\\' => acc ++ "\\\\"
  | '\n' => acc ++ "\\n"
  | '\r' => acc ++ "\\r"
  | '\t' => acc ++ "\\t"
  | _ => if c.toNat < 0x20 then acc ++ "\\u" ++ hex4 c.toNat else acc.push c

/-- Writes a string behind `acc`. -/
def pushString (acc s : String) : String :=
  (s.toList.foldl pushChar (acc.push '"')).push '"'

mutual

/-- Writes a value behind `acc`. -/
def push (acc : String) : Json → String
  | .null => acc ++ "null"
  | .bool b => acc ++ (if b then "true" else "false")
  | .int n => acc ++ toString n
  | .real d => acc ++ d.render
  | .str s => pushString acc s
  | .arr items => (pushItems (acc.push '[') true items).push ']'
  | .obj members => (pushMembers (acc.push '\x7b') true members).push '\x7d'

def pushItems (acc : String) (first : Bool) : List Json → String
  | [] => acc
  | j :: rest => pushItems (push (if first then acc else acc.push ',') j) false rest

def pushMembers (acc : String) (first : Bool) : List (String × Json) → String
  | [] => acc
  | (k, j) :: rest =>
    pushMembers (push ((pushString (if first then acc else acc.push ',') k).push ':') j) false rest

end

/-- The text of a value, without blanks. -/
def render (j : Json) : String :=
  push "" j

end Json

end SolutionAtlas
