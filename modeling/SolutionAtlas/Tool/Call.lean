-- SUMMARY: Calls of tools, and their answers.
import SolutionAtlas.Answer.Relative
import SolutionAtlas.Query.Calls
import SolutionAtlas.Query.Context
import SolutionAtlas.Query.Declaration
import SolutionAtlas.Query.Hierarchy
import SolutionAtlas.Query.Overview
import SolutionAtlas.Query.Search
import SolutionAtlas.Render.FileTree
import SolutionAtlas.Render.Summary
import SolutionAtlas.Tool.Catalogue

/-!
# Calls

A call names a tool and gives its arguments as JSON. What is wrong with the call itself is reported
before anything else; a call that its caller has given up is not carried out. Answers hold paths as
seen from the root of the loaded solution.
-/

namespace SolutionAtlas

/-- Why a call has no answer. -/
inductive ToolError where
  | unknownTool (name : String)
  | arguments (tool : Tool) (cause : ArgumentError)
  | emptyPath
  | unknownFormat (format : String)
  | query (cause : QueryError)

namespace ToolError

/-- The call cannot be read. -/
def isMalformed : ToolError → Bool
  | .unknownTool _ | .arguments _ _ => true
  | _ => false

def code : ToolError → String
  | .query cause => cause.code
  | _ => "invalid_request"

def message : ToolError → String
  | .unknownTool name =>
    "Unknown tool '" ++ name ++ "'. Available tools: " ++ ", ".intercalate (Tool.all.map Tool.name)
  | .arguments tool cause => "Invalid arguments for " ++ tool.name ++ ": " ++ cause.message
  | .emptyPath => "path must not be empty"
  | .unknownFormat format =>
    "Unknown format '" ++ format ++ "', expected \"json\" or \"markdown\""
  | .query cause => cause.message

def hint? : ToolError → Option String
  | .query cause => cause.hint?
  | _ => none

/-- What the caller is told. -/
def envelope (e : ToolError) : ErrorEnvelope :=
  ⟨e.message, e.code, e.hint?⟩

end ToolError

/-- What comes of a call. -/
structure ToolOutcome where
  result : Except ToolError Json
  context : Context
  disk : Disk
  call : Call

namespace ToolOutcome

def value (o : ToolOutcome) : Json :=
  match o.result with
  | .ok answer => answer
  | .error e => toJson e.envelope

def isError (o : ToolOutcome) : Bool :=
  match o.result with
  | .ok _ => false
  | .error _ => true

def code? (o : ToolOutcome) : Option String :=
  match o.result with
  | .ok _ => none
  | .error e => some e.code

end ToolOutcome

-- ---------------------------------------------------------------------------
-- Answers that are put together here
-- ---------------------------------------------------------------------------

/-- The formats of the overview of a solution. -/
inductive OverviewFormat where
  | json
  | markdown
  deriving Repr, DecidableEq

def OverviewFormat.read (format : Option String) : Except ToolError OverviewFormat :=
  match Text.lowerAscii (Text.trim (format.getD "")) with
  | "" | "json" => .ok .json
  | "markdown" | "md" => .ok .markdown
  | other => .error (.unknownFormat other)

namespace LoadedSolution

/-- An answer with its paths as seen from the root. -/
def present {α : Type} [JsonForm α] [Relativize α] (l : LoadedSolution) (answer : α) : Json :=
  toJson (relativize l.root answer)

/-- What a caller is told after a load. -/
def loadedAnswer (l : LoadedSolution) : Json :=
  .obj [("loaded", .bool true), ("has_live_engine", .bool l.live.isSome),
    ("solution", l.present l.overview)]

def overviewAnswer (l : LoadedSolution) : OverviewFormat → Json
  | .json => l.present l.overview
  | .markdown =>
    .obj [("format", .str "markdown"),
      ("content", .str (Summary.render (relativize l.root l.solution)))]

/-- The tree of the files of a project or of the solution. -/
def fileTree (l : LoadedSolution) (project : Option String) (options : FileTree.Options) :
    Except QueryError Json := do
  let paths ← l.filePaths project
  let name := ((project.bind l.solution.findProject?).map (·.name)).getD l.solution.name
  let header := name ++ " (" ++ toString paths.length ++ " files)"
  return .obj [("project_name", .str name), ("file_count", .nat paths.length),
    ("tree", .str (FileTree.render paths { options with header := some header }))]

end LoadedSolution

/-- The options of a tree that the arguments give. -/
def treeOptions (as : Arguments) : FileTree.Options :=
  let defaults : FileTree.Options := {}
  { defaults with
    maxDepth := (as.count? "max_depth").getD defaults.maxDepth
    maxEntries := (as.count? "max_entries_per_folder").getD defaults.maxEntries
    excludePatterns := (as.texts? "exclude_patterns").getD [] }

-- ---------------------------------------------------------------------------
-- Carrying out calls
-- ---------------------------------------------------------------------------

namespace Tool

/-- Passes on the failure of a query. -/
def ask {α : Type} : Except QueryError α → Except ToolError α :=
  Except.mapError .query

/-- Answers a call from what is loaded; a load is answered once it is done. -/
def answer (c : Context) (d : Disk) (tool : Tool) (as : Arguments) : Except ToolError Json :=
  let query {α : Type} [JsonForm α] [Relativize α] (f : LoadedSolution → Except QueryError α) :
      Except ToolError Json :=
    ask do
      let l ← c.requireLoaded
      return l.present (← f l)
  match tool with
  | .loadSolution => do return (← ask c.requireLoaded).loadedAnswer
  | .getSolutionInfo => do
    let format ← OverviewFormat.read (as.text? "format")
    return (← ask c.requireLoaded).overviewAnswer format
  | .getProjectMetadata => query fun l => l.projectMetadata (as.text "project_name")
  | .getFileTree => ask do
    let l ← c.requireLoaded
    l.fileTree (as.text? "project_name") (treeOptions as)
  | .getFileMetadata => query fun l => l.fileMetadata (as.text "path")
  | .detectConventions => query fun l => l.conventions (as.text? "project_name")
  | .getRecentlyModifiedFiles =>
    query fun l => l.recentFiles (as.count? "count") (as.text? "project_name")
  | .searchSymbols => do
    let q ← ask (SearchQuery.read (as.text "query") (as.text? "kind") (as.text? "scope")
      (as.count? "top_k"))
    query fun l => .ok (l.search q)
  | .getSymbolDetail => query fun l => l.symbolDetail (as.text "symbol_id")
  | .getTypeMembers => do
    let kind ← ask (kindFilter (as.text? "kind"))
    let access ← ask (accessFilter (as.text? "accessibility"))
    query fun l => l.typeMembers (as.text "type_id") kind access
  | .getTypeHierarchy => query fun l => l.typeHierarchy (as.text "type_id")
  | .getInterfaceImplementations =>
    query fun l => l.interfaceImplementations (as.text "interface_id")
  | .getCallers => query fun l => l.callers (as.text "symbol_id")
  | .getCallees => query fun l => l.callees (as.text "symbol_id")
  | .getUsages => query fun l => l.usages d (as.text "symbol_id")
  | .getDependencyGraph =>
    query fun l => l.dependencyGraph (as.text? "project_name") (as.count? "depth")
  | .getNamespaceTypes =>
    match Text.nonBlank? (as.text "namespace") with
    | none => .error (.query (.invalidArgument .emptyNamespace))
    | some wanted =>
      query fun l => l.typesOfNamespace wanted ((as.flag? "include_sub_namespaces").getD false)

/-- Loads the solution of a path that is not blank. -/
def load (c : Context) (w : Workspace) (now : Nat) (call : Call) (raw : String) : ToolOutcome :=
  match Text.nonBlank? raw with
  | none => ⟨.error .emptyPath, c, w.disk, call⟩
  | some path =>
    let o := c.load w now call path
    ⟨ask (o.result.map (·.loadedAnswer)), o.context, o.disk, o.call⟩

/-- Carries out a call whose arguments are read. -/
def run (c : Context) (w : Workspace) (now : Nat) (call : Call) (tool : Tool) (as : Arguments) :
    ToolOutcome :=
  if call.cancelled then ⟨.error (.query .cancelled), c, w.disk, call⟩
  else
    match tool with
    | .loadSolution => load c w now call (as.text "path")
    | tool => ⟨answer c w.disk tool as, c, w.disk, call⟩

/-- Carries out a call. -/
def call (c : Context) (w : Workspace) (now : Nat) (call : Call) (name : String) (args : Json) :
    ToolOutcome :=
  match named? name with
  | none => ⟨.error (.unknownTool name), c, w.disk, call⟩
  | some tool =>
    match tool.request.read args with
    | .error e => ⟨.error (.arguments tool e), c, w.disk, call⟩
    | .ok as => run c w now call tool as

end Tool

end SolutionAtlas
