-- SUMMARY: Why a query cannot be answered.
import SolutionAtlas.Analysis.Report
import SolutionAtlas.Disk.Basic
import SolutionAtlas.Model.SymbolKind

/-!
# Failures of queries

A failure names its cause. Its code tells callers what to do about it, and its message what happened.
-/

namespace SolutionAtlas

/-- What was looked for. -/
inductive Sought where
  | symbol
  | type
  | nameSpace
  | file
  | project
  deriving Repr, DecidableEq

def Sought.name : Sought → String
  | .symbol => "Symbol"
  | .type => "Type"
  | .nameSpace => "Namespace"
  | .file => "File"
  | .project => "Project"

/-- What to try when something is not found. -/
inductive Hint where
  | searchSymbols
  /-- The name stands for several symbols; their keys. -/
  | ambiguous (keys : List String)
  /-- The index holds what the model does not. -/
  | staleIndex
  | reload
  | listNamespaces
  | listFiles
  | listProjects
  deriving Repr, DecidableEq

namespace Hint

/-- How many of the keys of an ambiguous name are listed. -/
def maxListed : Nat := 10

def text : Hint → String
  | .searchSymbols => "Use search_symbols to find valid symbol ids."
  | .ambiguous keys =>
    let more := keys.length - maxListed
    "Name is ambiguous; use one of: " ++ ", ".intercalate (keys.take maxListed) ++
      (if more > 0 then " (and " ++ toString more ++ " more)" else "")
  | .staleIndex => "The index is out of date; call load_solution again."
  | .reload => "Reload the solution."
  | .listNamespaces => "Use get_project_metadata to list namespaces."
  | .listFiles => "Use get_file_tree to list files."
  | .listProjects => "Use get_solution_info to list projects."

end Hint

/-- What is wrong with an argument. -/
inductive ArgumentFault where
  | emptySymbolId
  | emptyQuery
  | emptyNamespace
  | emptyPath
  | unknownKind (text : String)
  | unknownAccessibility (text : String)
  | notInterface (name : String) (kind : SymbolKind)
  | cannotOpen (path : String) (cause : DiskError)
  | invalidPath (path : String)
  deriving Repr, DecidableEq

def ArgumentFault.text : ArgumentFault → String
  | .emptySymbolId => "symbol id must not be empty"
  | .emptyQuery => "query must not be empty"
  | .emptyNamespace => "namespace must not be empty"
  | .emptyPath => "path must not be empty"
  | .unknownKind text => "unknown symbol kind '" ++ text ++ "'"
  | .unknownAccessibility text => "unknown accessibility '" ++ text ++ "'"
  | .notInterface name kind => name ++ " is a " ++ kind.name ++ ", not an interface"
  | .cannotOpen path cause => "cannot open " ++ path ++ ": " ++ cause.message
  | .invalidPath path => "invalid path: " ++ path

inductive QueryError where
  | notLoaded
  | notFound (sought : Sought) (id : String) (hint : Hint)
  /-- The operation needs an engine. -/
  | unavailable (operation : String)
  | invalidArgument (fault : ArgumentFault)
  | cancelled
  | analysis (cause : AnalysisError)
  | engine (cause : AnalysisError)
  deriving Repr, DecidableEq

namespace QueryError

/-- The code by which callers tell failures apart. -/
def code : QueryError → String
  | .notLoaded => "not_loaded"
  | .notFound .. => "not_found"
  | .unavailable _ => "unavailable"
  | .invalidArgument _ => "invalid_request"
  | .cancelled => "cancelled"
  | .analysis _ | .engine _ => "internal"

def message : QueryError → String
  | .notLoaded =>
    "No solution is loaded. Call load_solution with a .sln, .slnx, .csproj or directory path first."
  | .notFound sought id hint => sought.name ++ " '" ++ id ++ "' not found. " ++ hint.text
  | .unavailable operation =>
    operation ++ " needs a live semantic engine, which the current provider does not offer"
  | .invalidArgument fault => "Invalid argument: " ++ fault.text
  | .cancelled => "Operation cancelled"
  | .analysis cause => "Analysis failed: " ++ cause.message
  | .engine cause => "Semantic engine error: " ++ cause.message

/-- What may help, when something is not found. -/
def hint? : QueryError → Option String
  | .notFound _ _ hint => some hint.text
  | _ => none

/-- The failure of an analysis as that of a query. -/
def ofAnalysis : AnalysisError → QueryError
  | .cancelled => .cancelled
  | .invalidPath path => .invalidArgument (.invalidPath path)
  | e => .analysis e

/-- The failure of an engine as that of a query. -/
def ofEngine : AnalysisError → QueryError
  | .cancelled => .cancelled
  | e => .engine e

end QueryError

end SolutionAtlas
