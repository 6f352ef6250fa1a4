-- SUMMARY: Loading and replacing the solution that queries are about.
import SolutionAtlas.Analysis.Cache
import SolutionAtlas.Analysis.ConfigFile
import SolutionAtlas.Analysis.Sweep
import SolutionAtlas.Query.Loaded

/-!
# Contexts

A context holds at most one loaded solution. A load builds the next solution in full before it
replaces the one that is there; whatever fails on the way leaves that one as it is. An engine is
released when its solution is replaced or dropped, or when the load that opened it is given up.
-/

namespace SolutionAtlas

structure ContextConfig where
  /-- The settings of the analysis; without them each solution's own settings file holds. -/
  analyzer : Option AnalyzerConfig := none
  /-- Solutions are kept on disk and taken from there, whatever the settings say. -/
  usePersistedCache : Bool := false
  deriving Repr, DecidableEq

structure Context where
  config : ContextConfig := {}
  loaded : Option LoadedSolution := none
  /-- The analyzer of the path that was loaded last. -/
  analyzer : Option (String × Analyzer) := none
  /-- How many engines the context was given. Each has the number it came with as its id. -/
  opened : Nat := 0
  /-- The ids of the engines that are released, in the order of their release. -/
  released : List Nat := []

namespace Context

/-- The loaded solution, which a query needs. -/
def requireLoaded (c : Context) : Except QueryError LoadedSolution :=
  match c.loaded with
  | some l => .ok l
  | none => .error .notLoaded

-- ---------------------------------------------------------------------------
-- Replacing
-- ---------------------------------------------------------------------------

/-- The ids of the engine of a solution, if any. -/
def liveIds (loaded : Option LoadedSolution) : List Nat :=
  ((loaded.bind (·.live)).map (·.id)).toList

/-- Installs a model in place of what was loaded, whose engine is released. -/
def install (c : Context) (s : Solution) (engine : Option Engine) : Context × LoadedSolution :=
  let l := LoadedSolution.ofSolution s (engine.map fun e => ⟨c.opened, e⟩)
  ({ c with
    loaded := some l
    opened := if engine.isSome then c.opened + 1 else c.opened
    released := c.released ++ liveIds c.loaded }, l)

/-- Takes an engine that is of no use any more, and releases it. -/
def discard (c : Context) (engine : Option Engine) : Context :=
  if engine.isSome then { c with opened := c.opened + 1, released := c.released ++ [c.opened] } else c

/-- Drops the loaded solution, and the analyzer with what it remembers. -/
def clear (c : Context) : Context :=
  { c with
    loaded := none
    analyzer := none
    released := c.released ++ liveIds c.loaded }

-- ---------------------------------------------------------------------------
-- Loading
-- ---------------------------------------------------------------------------

/-- The settings for a path. -/
def settingsFor (c : Context) (w : Workspace) (path : String) : Except AnalysisError AnalyzerConfig :=
  match c.config.analyzer with
  | some config => .ok config
  | none => AnalyzerConfig.load w.environment w.disk (AnalyzerConfig.directoryFor w.disk path)

/-- The analyzer for a path: the one at hand when it is for the same path, or else a new one. -/
def analyzerFor (c : Context) (w : Workspace) (path : String) : Except AnalysisError Analyzer :=
  let new : Except AnalysisError Analyzer := do Analyzer.ofConfig (← c.settingsFor w path)
  match c.analyzer with
  | some (known, a) => if known = path then .ok a else new
  | none => new

/-- The cache on disk, when it is in use. -/
def cache? (c : Context) (config : AnalyzerConfig) : Option SolutionCache :=
  if c.config.usePersistedCache || config.cache.enabled then
    some ⟨config.cache.resolvedDir, config.cache.ttlSecs⟩
  else none

/-- The model that the cache holds for a path. A cache that cannot be read holds none. -/
def cachedModel? (cache : Option SolutionCache) (d : Disk) (now : Nat) (path : String) :
    Option Solution :=
  cache.bind fun cache => (cache.load d now path).toOption.join

/-- The disk after a model is kept. A cache that cannot be written keeps none. -/
def keepModel (cache : Option SolutionCache) (d : Disk) (now : Nat) (path : String) (s : Solution) :
    Disk :=
  (cache.bind fun cache => (cache.store d now path s).toOption).getD d

/-- What comes of a load. -/
structure LoadOutcome where
  result : Except QueryError LoadedSolution
  context : Context
  disk : Disk
  call : Call

/-- The model of a path, from the cache or from an analysis. -/
def modelOf (c : Context) (w : Workspace) (now : Nat) (call : Call) (path : String) (a : Analyzer) :
    Analyzer.Outcome Solution × Disk :=
  let cache := c.cache? a.config
  match cachedModel? cache w.disk now path with
  | some s => (⟨.ok s, a, call⟩, w.disk)
  | none =>
    let o := a.analyzeSolution w call path
    match o.result with
    | .ok s => (o, keepModel cache w.disk now path s)
    | .error _ => (o, w.disk)

/-- Opens an engine for a model and installs both. Without an engine the model stands alone; if the
caller gives up, neither is installed. -/
def openAndInstall (c : Context) (w : Workspace) (call : Call) (path : String) (s : Solution) :
    Except QueryError LoadedSolution × Context × Call :=
  let attempt := w.provider.openEngine path
  let call := { call with cancelled := call.cancelled || attempt.givesUp }
  match attempt.result with
  | .error .cancelled => (.error .cancelled, c, call)
  | result =>
    let engine := result.toOption.join
    if call.cancelled then (.error .cancelled, c.discard engine, call)
    else
      let (c, l) := c.install s engine
      (.ok l, c, call)

/-- Loads the solution that a path stands for. -/
def load (c : Context) (w : Workspace) (now : Nat) (call : Call) (path : String) : LoadOutcome :=
  if call.cancelled then ⟨.error .cancelled, c, w.disk, call⟩
  else
    match w.disk.canonical path with
    | .error e => ⟨.error (.invalidArgument (.cannotOpen path e)), c, w.disk, call⟩
    | .ok full =>
      match c.analyzerFor w full with
      | .error e => ⟨.error (.ofAnalysis e), c, w.disk, call⟩
      | .ok a =>
        let (o, disk) := c.modelOf w now call full a
        let c := { c with analyzer := some (full, o.analyzer) }
        match o.result with
        | .error e => ⟨.error (.ofAnalysis e), c, disk, o.call⟩
        | .ok s =>
          let (result, c, call) := c.openAndInstall { w with disk } o.call full s
          ⟨result, c, disk, call⟩

end Context

end SolutionAtlas
