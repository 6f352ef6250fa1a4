-- SUMMARY: A solution that is loaded for queries.
import SolutionAtlas.Analysis.Provider
import SolutionAtlas.Graph.Basic
import SolutionAtlas.Index.Basic
import SolutionAtlas.Query.Error
import SolutionAtlas.Text.Quoted

/-!
# Loaded solutions

A loaded solution holds the model with an index and a graph made from it, and perhaps an engine. All
of it stays as it is until another solution is loaded.
-/

namespace SolutionAtlas

/-- An engine that has been opened. No two have one id. -/
structure LiveEngine where
  id : Nat
  engine : Engine

structure LoadedSolution where
  solution : Solution
  index : SymbolIndex
  graph : ProjectGraph
  /-- The directory that all shown paths are relative to. -/
  root : String
  live : Option LiveEngine

namespace LoadedSolution

/-- Loads a model, with an engine when there is one. -/
def ofSolution (s : Solution) (live : Option LiveEngine) : LoadedSolution :=
  { solution := s
    index := (SymbolIndex.empty.addSolution s).2
    graph := .ofSolution s
    root := s.rootDir
    live }

/-- The first declaration of the type with a given key. -/
def findType? (l : LoadedSolution) (key : String) : Option (Project × Namespace × TypeSymbol) :=
  l.solution.types.find? fun (_, _, t) => t.symbol.key == key

/-- The first declaration of the member with a given key, with the type that declares it. -/
def findMember? (l : LoadedSolution) (key : String) :
    Option (Project × Namespace × TypeSymbol × Member) :=
  l.solution.types.findSome? fun (p, n, t) =>
    (t.members.find? (·.symbol.key == key)).map fun m => (p, n, t, m)

/-- The engine, which an operation needs. -/
def requireLive (l : LoadedSolution) (operation : String) : Except QueryError LiveEngine :=
  match l.live with
  | some live => .ok live
  | none => .error (.unavailable operation)

/-- The project that a user names. -/
def requireProject (l : LoadedSolution) (name : String) : Except QueryError Project :=
  match l.solution.findProject? name with
  | some p => .ok p
  | none => .error (.notFound .project (Text.trim name) .listProjects)

/-- The projects that a user asks about: the named one, or all of them. -/
def projectsFor (l : LoadedSolution) (name : Option String) : Except QueryError (List Project) :=
  match name.bind Text.nonBlank? with
  | some name => (l.requireProject name).map ([·])
  | none => .ok l.solution.projects

/-- What is loaded, on one line. -/
def describe (l : LoadedSolution) : String :=
  "SolutionState \x7b solution: " ++ Text.quoted l.solution.name ++
    ", projects: " ++ toString l.solution.projects.length ++
    ", symbols: " ++ toString l.index.size ++
    ", live: " ++ (if l.live.isSome then "true" else "false") ++ " \x7d"

end LoadedSolution

end SolutionAtlas
