-- SUMMARY: What the model knows of a symbol, of a type's members and of a namespace's types.
import SolutionAtlas.Query.Filter
import SolutionAtlas.Query.Resolve

/-!
# Declarations

The index finds a symbol, and the model tells the rest.
-/

namespace SolutionAtlas.LoadedSolution

/-- The index holds a symbol that the model does not. -/
def stale {α : Type} (e : IndexEntry) : Except QueryError α :=
  .error (.notFound .symbol e.key .staleIndex)

-- ---------------------------------------------------------------------------
-- Symbols and members
-- ---------------------------------------------------------------------------

/-- All that is known of the symbol of an entry. -/
def detailOf (l : LoadedSolution) (e : IndexEntry) : Except QueryError SymbolDetail :=
  if e.isType then
    match l.findType? e.key with
    | some (p, n, t) => .ok ⟨t.symbol, some p.name, some n.name, .ofType t⟩
    | none => stale e
  else
    match l.findMember? e.key with
    | some (p, n, t, m) => .ok ⟨m.symbol, some p.name, some n.name, .ofMember m (some t)⟩
    | none => stale e

def symbolDetail (l : LoadedSolution) (id : String) : Except QueryError SymbolDetail := do
  l.detailOf (← l.resolve .any id)

/-- The members of a type that pass two filters. -/
def typeMembers (l : LoadedSolution) (id : String) (kind : Option SymbolKind)
    (access : Option Accessibility) : Except QueryError TypeMembers := do
  let e ← l.resolve .type id
  match l.findType? e.key with
  | none => stale e
  | some (_, _, t) =>
    let members := t.members.filter fun m =>
      passes kind m.symbol.kind && passes access m.symbol.accessibility
    return {
      typeId := e.key
      typeName := t.symbol.name
      totalCount := t.members.length
      filteredCount := members.length
      members }

-- ---------------------------------------------------------------------------
-- Namespaces
-- ---------------------------------------------------------------------------

/-- A namespace is the wanted one, or lies below it. -/
def selectsNamespace (wanted : String) (withNested : Bool) (name : String) : Bool :=
  name == wanted || (withNested && Text.startsWith name (wanted ++ "."))

/-- Adds a summary unless a type with its id is there. -/
def addSummary (acc : List TypeSummary) (t : TypeSummary) : List TypeSummary :=
  if t.id.isSome && acc.any (·.id == t.id) then acc else acc ++ [t]

/-- By kind, then by name, then by namespace. -/
def summaryLe (a b : TypeSummary) : Bool :=
  if a.kind ≠ b.kind then a.kind.rank ≤ b.kind.rank
  else if a.name ≠ b.name then a.name ≤ b.name
  else a.nameSpace ≤ b.nameSpace

/-- The types of a namespace, which is given without blanks around it. -/
def typesOfNamespace (l : LoadedSolution) (wanted : String) (withNested : Bool) :
    Except QueryError NamespaceTypes :=
  let selected := l.solution.types.filter fun (_, n, _) => selectsNamespace wanted withNested n.name
  if selected.isEmpty then .error (.notFound .nameSpace wanted .listNamespaces)
  else
    let types := (selected.map fun (_, n, t) => TypeSummary.ofType n.name t).foldl addSummary []
    .ok ⟨wanted, withNested, types.mergeSort summaryLe⟩

end SolutionAtlas.LoadedSolution
