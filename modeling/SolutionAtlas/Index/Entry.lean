-- SUMMARY: Entries of the symbol index.
import SolutionAtlas.Answer.Codec

/-!
# Index entries

An entry holds a symbol under its key, with as much of its surroundings as queries need that do not
look at the model.
-/

namespace SolutionAtlas

/-- What an entry knows of a type or of a member beyond its symbol. -/
inductive EntryDetail where
  | type (baseTypes interfaces memberKeys : List String)
  | member (containingTypeId returnType : Option String)
  deriving Repr, DecidableEq

structure IndexEntry where
  key : String
  symbol : Symbol
  detail : EntryDetail
  /-- The manifest path of the project that declares the symbol. -/
  projectFilePath : String
  nameSpace : String
  deriving Repr, DecidableEq

namespace IndexEntry

/-- The entry of a type. -/
def ofType (project space : String) (t : TypeSymbol) : IndexEntry :=
  { key := t.symbol.key
    symbol := t.symbol
    detail := .type t.baseTypes t.interfaces (t.members.map (·.symbol.key))
    projectFilePath := project
    nameSpace := space }

/-- The entry of a member of a type. -/
def ofMember (project space : String) (owner : TypeSymbol) (m : Member) : IndexEntry :=
  { key := m.symbol.key
    symbol := m.symbol
    detail := .member (some (m.containingTypeId.getD owner.symbol.key)) m.returnType
    projectFilePath := project
    nameSpace := space }

/-- The entries of a type and of its members. -/
def allOfType (project space : String) (t : TypeSymbol) : List IndexEntry :=
  ofType project space t :: t.members.map (ofMember project space t)

def isType (e : IndexEntry) : Bool :=
  match e.detail with
  | .type .. => true
  | .member .. => false

/-- The types that a type is declared to extend or implement. -/
def supertypes (e : IndexEntry) : List String :=
  match e.detail with
  | .type baseTypes interfaces _ => baseTypes ++ interfaces
  | .member .. => []

/-- The name under which an entry is found, whatever the case it is asked in. -/
def bucket (e : IndexEntry) : String :=
  Text.lower e.symbol.name

end IndexEntry

open Json in
/-- The detail is an object with a tag. -/
instance : JsonForm EntryDetail where
  toJson
    | .type baseTypes interfaces memberKeys => record [
        member "detail" "type", member "base_types" baseTypes,
        member "implemented_interfaces" interfaces, member "member_keys" memberKeys]
    | .member containingTypeId returnType => record [
        member "detail" "member", member "containing_type_id" containingTypeId,
        member "return_type" returnType]
  ofJson? j := do
    let f ← objectFields? j
    match ← f.required (α := String) "detail" with
    | "type" =>
      return .type (← f.required "base_types") (← f.required "implemented_interfaces")
        (← f.required "member_keys")
    | "member" =>
      return .member (← f.optional "containing_type_id") (← f.optional "return_type")
    | _ => none

open Json in
instance : JsonForm IndexEntry where
  toJson e := record [
    member "key" e.key, member "symbol" e.symbol, member "detail" e.detail,
    member "project_file_path" e.projectFilePath, member "namespace" e.nameSpace]
  ofJson? j := do
    let f ← objectFields? j
    return {
      key := ← f.required "key"
      symbol := ← f.required "symbol"
      detail := ← f.required "detail"
      projectFilePath := ← f.required "project_file_path"
      nameSpace := ← f.required "namespace" }

end SolutionAtlas
