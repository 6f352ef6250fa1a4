-- SUMMARY: Incremental analysis of one project.
import SolutionAtlas.Analysis.Config
import SolutionAtlas.Analysis.Detect
import SolutionAtlas.Analysis.Discovery
import SolutionAtlas.Analysis.Document
import SolutionAtlas.Analysis.Provider
import SolutionAtlas.Glob.Exclude
import SolutionAtlas.Index.Basic
import SolutionAtlas.Manifest.Project

/-!
# Analysis of a project

An analyzer remembers the documents of every project it has seen, and an index of their symbols. A
pass takes over the documents that have kept their time of change, analyzes the others in waves, and
puts the project together from both. A pass that is cancelled forgets what it has begun.
-/

namespace SolutionAtlas

/-- The order in which the documents of a wave are done. -/
structure Schedule where
  order : List DocumentJob → List DocumentJob
  order_perm : ∀ wave, (order wave).Perm wave

/-- One after the other. -/
def Schedule.inTurn : Schedule :=
  ⟨id, fun _ => .refl _⟩

/-- When a caller may give up by itself. -/
inductive Moment where
  | beforeProject (manifest : String)
  | beforeDocument (job : DocumentJob)
  deriving Repr, DecidableEq

/-- What an analysis works on. -/
structure Workspace where
  provider : Provider
  disk : Disk
  schedule : Schedule := .inTurn
  /-- The moments at which the caller gives up. -/
  givesUp : Moment → Bool := fun _ => false
  /-- The variables that override settings. -/
  environment : String → Option String := fun _ => none

/-- A call in progress: whether its caller has given up, and how many documents it has parsed. -/
structure Call where
  cancelled : Bool := false
  parses : Nat := 0
  deriving Repr, DecidableEq

structure Analyzer where
  config : AnalyzerConfig
  exclude : ExcludeFilter
  index : SymbolIndex := .empty
  /-- The documents of each project by their paths, in plain spelling. -/
  documents : Table (Table AnalyzedDocument) := []
  lastReport : AnalysisReport := {}

/-- A new analyzer, which has seen nothing. -/
def Analyzer.ofConfig (config : AnalyzerConfig) : Except AnalysisError Analyzer := do
  return { config, exclude := ← ExcludeFilter.ofPatterns config.excludePatterns }

-- ---------------------------------------------------------------------------
-- Documents of a pass
-- ---------------------------------------------------------------------------

/-- A path as seen from the root of its project, with slashes; a path elsewhere stays as it is. -/
def pathBelow (root path : String) : String :=
  Text.forwardSlashes ((Path.strip? root path).getD path)

/-- A segment of the path is a folder of build output. -/
def isBuildOutput (path : String) : Bool :=
  (Path.components path).any fun c =>
    Text.eqIgnoreCase c.text "bin" || Text.eqIgnoreCase c.text "obj"

/-- The document enters the analysis. -/
def isEligibleDocument (exclude : ExcludeFilter) (path relativePath : String) : Bool :=
  !(isGeneratedFileName (Text.lower ((Path.fileName? path).getD "")) ||
    isBuildOutput relativePath || exclude.excludes relativePath)

/-- The documents of a project, told apart by whether they enter the analysis. -/
structure Stamped where
  jobs : List DocumentJob := []
  skipped : Nat := 0
  failures : List String := []
  deriving Repr, DecidableEq

/-- Looks up the time of change of a document that enters the analysis. -/
def Stamped.add (d : Disk) (exclude : ExcludeFilter) (root : String) (s : Stamped) (path : String) :
    Stamped :=
  let relative := pathBelow root path
  if !isEligibleDocument exclude path relative then { s with skipped := s.skipped + 1 }
  else
    match d.modifiedMs path with
    | .ok t => { s with jobs := s.jobs ++ [⟨path, relative, t⟩] }
    | .error e => { s with failures := s.failures ++ [path ++ ": " ++ e.message] }

def Stamped.ofPaths (d : Disk) (exclude : ExcludeFilter) (root : String) (paths : List String) :
    Stamped :=
  (Path.sorted paths).foldl (add d exclude root) {}

/-- The result of an earlier pass that still holds for a document, under the path it has now. -/
def reusable? (previous : Table AnalyzedDocument) (job : DocumentJob) : Option AnalyzedDocument :=
  ((previous.get? (Path.tidy job.path)).filter (·.modifiedMs == job.modifiedMs)).map
    fun document => { document with path := job.path }

/-- The documents of a project, set against the results of an earlier pass. -/
structure Plan where
  stamped : Stamped
  /-- The earlier results that still hold. -/
  reused : Table AnalyzedDocument
  changed : List DocumentJob
  /-- The paths of the documents that the project has no longer. -/
  gone : List String

namespace Plan

def ofStamped (previous : Table AnalyzedDocument) (stamped : Stamped) : Plan :=
  let live := stamped.jobs.map fun j => Path.tidy j.path
  { stamped
    reused := stamped.jobs.foldl (fun t j =>
      match reusable? previous j with
      | some document => t.insert (Path.tidy j.path) document
      | none => t) []
    changed := stamped.jobs.filter fun j => (reusable? previous j).isNone
    gone := (previous.filter fun e => !live.contains e.1).map (·.2.path) }

def changedPaths (plan : Plan) : List String :=
  plan.changed.map (·.path)

/-- The files whose symbols are out of date. -/
def stale (plan : Plan) : List String :=
  plan.gone ++ plan.changedPaths

end Plan

-- ---------------------------------------------------------------------------
-- Waves
-- ---------------------------------------------------------------------------

/-- A list in pieces of a given size, the last of which may be shorter. -/
def piecesOf {α : Type} (size : Nat) : Nat → List α → List (List α)
  | 0, _ => []
  | _, [] => []
  | fuel + 1, xs => xs.take size :: piecesOf size fuel (xs.drop size)

/-- What the analysis of a document comes to. -/
structure DocumentResult where
  outcome : Except String AnalyzedDocument
  /-- The text could be read, so it was parsed. -/
  parsed : Bool
  givesUp : Bool

/-- Reads and parses a document. -/
def Workspace.analyzeDocument (w : Workspace) (options : ExtractOptions) (job : DocumentJob) :
    DocumentResult :=
  let failure (text : String) : Except String AnalyzedDocument := .error (job.path ++ ": " ++ text)
  match w.disk.readText job.path with
  | .error e => ⟨failure e.message, false, false⟩
  | .ok text =>
    let attempt := w.provider.parseDocument job.path text
    match attempt.result with
    | .error e => ⟨failure e.message, true, attempt.givesUp⟩
    | .ok outline => ⟨.ok (.ofOutline job outline options), true, attempt.givesUp⟩

/-- A pass over changed documents. -/
structure Pass where
  call : Call
  index : SymbolIndex
  outcomes : List (DocumentJob × Except String AnalyzedDocument) := []

namespace Pass

/-- Enters the types of a document and their members into the index, unless their keys are taken. -/
def indexNamespaces (project : String) (x : SymbolIndex) (namespaces : List Namespace) :
    SymbolIndex :=
  (namespaces.flatMap fun n => n.types.flatMap (IndexEntry.allOfType project n.name)).foldl
    (fun x e => (x.add e).2) x

/-- Enters the result of a document, if there is one. -/
def indexOutcome (project : String) (x : SymbolIndex) : Except String AnalyzedDocument → SymbolIndex
  | .ok document => indexNamespaces project x document.namespaces
  | .error _ => x

/-- Analyzes a document, unless the caller has given up. -/
def analyze (w : Workspace) (project : String) (options : ExtractOptions) (p : Pass)
    (job : DocumentJob) : Pass :=
  if p.call.cancelled || w.givesUp (.beforeDocument job) then
    { p with call := { p.call with cancelled := true } }
  else
    let r := w.analyzeDocument options job
    { call := ⟨r.givesUp, p.call.parses + r.parsed.toNat⟩
      index := indexOutcome project p.index r.outcome
      outcomes := p.outcomes ++ [(job, r.outcome)] }

/-- Analyzes the documents of a wave. -/
def runWave (w : Workspace) (project : String) (options : ExtractOptions) (p : Pass)
    (wave : List DocumentJob) : Pass :=
  (w.schedule.order wave).foldl (analyze w project options) p

end Pass

-- ---------------------------------------------------------------------------
-- Putting a project together
-- ---------------------------------------------------------------------------

/-- Brings the index in step with the namespaces of a project: merged types are set anew, and what is
missing is added. -/
def syncIndex (project : String) (m : MergedNamespaces) (x : SymbolIndex) : SymbolIndex :=
  (m.namespaces.flatMap fun n => n.types.map fun t => (n.name, t)).foldl (fun x (space, t) =>
    let entry := IndexEntry.ofType project space t
    let x := if m.repeated.contains t.symbol.key then x.upsert entry else (x.add entry).2
    (t.members.map (IndexEntry.ofMember project space t)).foldl (fun x e => (x.add e).2) x) x

/-- Files of this kind have lines. -/
def FileKind.hasLines : FileKind → Bool
  | .source | .generated | .config | .doc => true
  | .resource | .other => false

/-- The number of lines of a file: that of its document, or else counted. -/
def linesOf (d : Disk) (documents : Table AnalyzedDocument) (kind : FileKind) (path : String) : Nat :=
  match documents.get? (Path.tidy path) with
  | some document => document.lineCount
  | none =>
    if kind.hasLines then
      match d.readBytes path with
      | .ok bytes => Text.countLines bytes
      | .error _ => 0
    else 0

/-- The entries of the files of a project, without those that are not there. -/
def fileEntries (d : Disk) (source : ProjectSource) (root project : String)
    (documents : Table AnalyzedDocument) : List FileEntry :=
  (Path.sorted (source.documents ++ source.otherFiles)).filterMap fun path =>
    match d.find path with
    | .error _ => none
    | .ok entry =>
      let kind := FileKind.classify path
      some {
        filePath := path
        relativePath := pathBelow root path
        projectFilePath := project
        extension := Text.lower ((Path.extension? path).getD "")
        sizeBytes := entry.size
        lineCount := linesOf d documents kind path
        lastWriteMs := entry.modifiedMs
        kind }

/-- The conventions of a project. -/
def detectConventions (d : Disk) (depth : Nat) (manifest : Manifest) (root : String)
    (documents : List AnalyzedDocument) (files : List FileEntry) : Conventions :=
  let editorConfig := findEditorConfig? d depth root
  { hasEditorConfig := editorConfig.isSome
    editorConfigPath := editorConfig
    nullableEnabled := manifest.nullableEnabled
    implicitUsingsEnabled := manifest.implicitUsingsEnabled
    defaultNamespace :=
      (Detect.defaultNamespace? (documents.flatMap (·.namespaceLiterals))).or manifest.rootNamespace
    namespaceStyle := NamespaceStyle.ofCounts? (totalOf (·.fileScopedNamespaces) documents)
      (totalOf (·.blockNamespaces) documents)
    testFramework := Detect.testFramework? manifest.packageReferences
    documentationFiles :=
      ((files.filter fun f => Detect.isDocument f.relativePath).map (·.filePath)).mergeSort
        fun a b => a ≤ b }

namespace Analyzer

/-- The result of a pass: the project and its report, the analyzer after the pass, and the call. -/
structure Outcome (α : Type) where
  result : Except AnalysisError α
  analyzer : Analyzer
  call : Call

def options (a : Analyzer) : ExtractOptions :=
  ⟨a.config.includePrivateMembers, a.config.includeForwardingMethods⟩

/-- The index without the entries of some files. -/
def dropFiles (x : SymbolIndex) (paths : List String) : SymbolIndex :=
  paths.foldl (fun x p => (x.invalidate p).2) x

/-- Adds the outcome of a document to a report. -/
def count (r : AnalysisReport) : Except String AnalyzedDocument → AnalysisReport
  | .ok document =>
    if document.autoGenerated then { r with skipped := r.skipped + 1 }
    else { r with analyzed := r.analyzed + 1 }
  | .error text => r.addFailure text

/-- The report of a pass that was not given up. -/
def reportOf (plan : Plan) (outcomes : List (Except String AnalyzedDocument)) : AnalysisReport :=
  outcomes.foldl count {
    projects := 1
    reused := plan.reused.length
    failed := plan.stamped.failures.length
    skipped := plan.stamped.skipped
    errors := plan.stamped.failures }

/-- Adds the documents that could be analyzed to those taken over. -/
def withOutcomes (reused : Table AnalyzedDocument)
    (outcomes : List (DocumentJob × Except String AnalyzedDocument)) : Table AnalyzedDocument :=
  outcomes.foldl (fun t (job, outcome) =>
    match outcome with
    | .ok document => t.insert (Path.tidy job.path) document
    | .error _ => t) reused

/-- Puts the project together once its documents are analyzed. -/
def assemble (a : Analyzer) (d : Disk) (source : ProjectSource) (project root : String)
    (manifest : Manifest) (kept : Table AnalyzedDocument) (x : SymbolIndex) : Project × Analyzer :=
  let ordered := kept.values.mergeSort fun a b => a.relativePath ≤ b.relativePath
  let merged := MergedNamespaces.ofDocuments ordered
  let files := fileEntries d source root project kept
  let conventions := detectConventions d a.config.editorConfigSearchDepth manifest root ordered files
  let result : Project := {
    name := source.name
    projectFilePath := project
    rootDirectories := source.rootDirs
    targetFrameworks := manifest.targetFrameworks
    packageReferences := manifest.packageReferences
    projectReferences := manifest.projectReferences
    namespaces := merged.namespaces
    files
    conventions }
  (result.withStatistics, { a with
    index := syncIndex project merged x
    documents := a.documents.insert project kept })

/-- The documents of a project, as the last pass over it left them. -/
def documentsOf (a : Analyzer) (project : String) : Table AnalyzedDocument :=
  (a.documents.get? project).getD []

/-- What a pass over the documents of a project has to do. -/
def planFor (a : Analyzer) (d : Disk) (project root : String) (source : ProjectSource) : Plan :=
  .ofStamped (a.documentsOf project) (.ofPaths d a.exclude root source.documents)

/-- Analyzes the documents of a project that a provider has listed. -/
def analyzeSource (a : Analyzer) (w : Workspace) (call : Call) (project directory : String)
    (source : ProjectSource) : Outcome (Project × AnalysisReport) :=
  let root := source.rootDirs.head?.getD directory
  let plan := a.planFor w.disk project root source
  let waves := piecesOf a.config.concurrency plan.changed.length plan.changed
  let pass := waves.foldl (Pass.runWave w project a.options)
    { call, index := dropFiles a.index plan.stale }
  if pass.call.cancelled then
    ⟨.error .cancelled, { a with index := dropFiles pass.index plan.changedPaths }, pass.call⟩
  else
    let manifest := Manifest.read source.manifestText directory
    let kept := withOutcomes plan.reused pass.outcomes
    let (result, b) := a.assemble w.disk source project root manifest kept pass.index
    ⟨.ok (result, reportOf plan (pass.outcomes.map (·.2))), b, pass.call⟩

/-- Analyzes the project of a manifest. -/
def pass (a : Analyzer) (w : Workspace) (call : Call) (manifest : String) :
    Outcome (Project × AnalysisReport) :=
  if call.cancelled then ⟨.error .cancelled, a, call⟩
  else
    match w.disk.canonical manifest with
    | .error e => ⟨.error (.invalidPath (manifest ++ ": " ++ e.message)), a, call⟩
    | .ok project =>
      match w.provider.loadProject w.disk project, Path.parent? project with
      | .error e, _ => ⟨.error e, a, call⟩
      | .ok _, none => ⟨.error (.invalidPath project), a, call⟩
      | .ok source, some directory => a.analyzeSource w call project directory source

/-- Analyzes the project of a manifest, and keeps its report. -/
def analyzeProject (a : Analyzer) (w : Workspace) (call : Call) (manifest : String) :
    Outcome Project :=
  let o := a.pass w call manifest
  match o.result with
  | .ok (project, report) => ⟨.ok project, { o.analyzer with lastReport := report }, o.call⟩
  | .error e => ⟨.error e, o.analyzer, o.call⟩

end Analyzer

end SolutionAtlas
