-- SUMMARY: Base types, derived types and implementations.
import SolutionAtlas.Distinct
import SolutionAtlas.Query.Resolve

/-!
# Hierarchies

The engine knows derived types by their ids. Without an engine, or when it fails, they are found by
the simple names in the base lists of the index. Base types are followed through the model.
-/

namespace SolutionAtlas

/-- Which types below another one are asked for. -/
inductive DerivedQuery where
  /-- Derived types, and those that implement an interface. -/
  | hierarchy
  | implementations
  deriving Repr, DecidableEq

/-- The types below a type as an engine knows them. -/
def Engine.derived (engine : Engine) (key : String) (isInterface : Bool) (q : DerivedQuery) :
    Except AnalysisError (List SymbolRef) := do
  let derived ← if q = .hierarchy then engine.derivedTypes key else .ok []
  let implementing ← if isInterface then engine.implementations key else .ok []
  return firstOfEach SymbolRef.identity (derived ++ implementing)

namespace LoadedSolution

/-- The types whose base list names the type of an entry. -/
def derivedByName (l : LoadedSolution) (e : IndexEntry) : List SymbolRef :=
  let target := simpleTypeName e.symbol.name
  let found := l.index.snapshot.filter fun d =>
    d.isType && d.key != e.key && d.supertypes.any (simpleTypeName · == target)
  found.map fun d => SymbolRef.ofSymbol d.symbol

/-- The types below the type of an entry, and where they come from. -/
def derived (l : LoadedSolution) (e : IndexEntry) (isInterface : Bool) (q : DerivedQuery) :
    Except QueryError (List SymbolRef × HierarchySource) :=
  match l.live with
  | none => .ok (l.derivedByName e, .index)
  | some live =>
    match live.engine.derived e.key isInterface q with
    | .ok found => .ok (found, .live)
    | .error .cancelled => .error .cancelled
    | .error _ => .ok (l.derivedByName e, .index)

-- ---------------------------------------------------------------------------
-- Base types
-- ---------------------------------------------------------------------------

/-- The longest chain of base types that is followed. -/
def maxBaseChain : Nat := 32

/-- The first class or record with a given simple name. -/
def classNamed? (l : LoadedSolution) (simple : String) : Option TypeSymbol :=
  (l.solution.types.map fun (_, _, t) => t).find? fun t =>
    (t.symbol.kind == .classType || t.symbol.kind == .recordType) &&
      simpleTypeName t.symbol.name == simple

/-- Follows base types upwards to a given length. `seen` holds the simple names on the way; the chain
ends behind the first name that is seen again. -/
def baseChainFrom (l : LoadedSolution) : Nat → List String → TypeSymbol → List String
  | 0, _, _ => []
  | n + 1, seen, t =>
    match t.baseTypes with
    | [] => []
    | base :: _ =>
      let simple := simpleTypeName base
      if seen.contains simple then [base]
      else
        match l.classNamed? simple with
        | some next => base :: baseChainFrom l n (simple :: seen) next
        | none => [base]

/-- The base types of a type, from the nearest upwards. -/
def baseChain (l : LoadedSolution) (t : TypeSymbol) : List String :=
  l.baseChainFrom maxBaseChain [simpleTypeName t.symbol.name] t

-- ---------------------------------------------------------------------------
-- Queries
-- ---------------------------------------------------------------------------

def typeHierarchy (l : LoadedSolution) (id : String) : Except QueryError TypeHierarchy := do
  let e ← l.resolve .type id
  match l.findType? e.key with
  | none => throw (.notFound .type e.key .reload)
  | some (_, _, t) =>
    let (derivedTypes, source) ← l.derived e (t.symbol.kind == .interfaceType) .hierarchy
    return {
      typeId := e.key
      name := t.symbol.name
      kind := t.symbol.kind
      baseTypes := t.baseTypes
      baseChain := l.baseChain t
      interfaces := t.interfaces
      derivedTypes
      source }

def interfaceImplementations (l : LoadedSolution) (id : String) :
    Except QueryError InterfaceImplementations := do
  let e ← l.resolve .type id
  if e.symbol.kind ≠ .interfaceType then
    throw (.invalidArgument (.notInterface e.symbol.name e.symbol.kind))
  else
    let (implementations, source) ← l.derived e true .implementations
    return ⟨e.key, e.symbol.name, implementations, source⟩

end LoadedSolution

end SolutionAtlas
