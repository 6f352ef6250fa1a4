-- SUMMARY: Callers, callees and usages of a symbol, as an engine knows them.
import SolutionAtlas.Distinct
import SolutionAtlas.Query.Resolve
import SolutionAtlas.Table
import SolutionAtlas.Text.Lines

/-!
# Calls and usages

These queries need an engine. Its answers are merged by identity and cut to a fixed length, which the
answer says.
-/

namespace SolutionAtlas

def maxCallers : Nat := 50
def maxCallees : Nat := 100
def maxUsages : Nat := 200

-- ---------------------------------------------------------------------------
-- Callers
-- ---------------------------------------------------------------------------

/-- Callers as they are merged, in the order of their first mentions, with the places where they stand by
their identities. -/
structure CallerMerge where
  order : List Caller := []
  positions : Table Nat := []
  deriving Repr, DecidableEq

/-- Adds the call sites of a caller to the one that is the same, or else the caller. -/
def CallerMerge.add (m : CallerMerge) (c : Caller) : CallerMerge :=
  match m.positions.get? c.caller.identity with
  | some i =>
    { m with
      order := m.order.modify i fun a => { a with callSites := unionInto a.callSites c.callSites } }
  | none =>
    { order := m.order ++ [c]
      positions := m.positions.insert c.caller.identity m.order.length }

/-- One entry per caller, in the order of their first mentions. -/
def mergeCallers (found : List Caller) : List Caller :=
  (found.foldl CallerMerge.add {}).order

-- ---------------------------------------------------------------------------
-- Callees
-- ---------------------------------------------------------------------------

def Callee.ofOperation : BodyOperation → Callee
  | .invocation callee => ⟨callee, .invocation⟩
  | .creation callee => ⟨callee, .construction⟩

/-- The first operation on each symbol. -/
def distinctCallees (operations : List BodyOperation) : List Callee :=
  firstOfEach (·.callee.identity) (operations.map Callee.ofOperation)

-- ---------------------------------------------------------------------------
-- Usages
-- ---------------------------------------------------------------------------

/-- The source files that have been looked at, each with its lines, or with `none` when it cannot be
read. -/
abbrev SourceLines := Table (Option (List String))

namespace SourceLines

/-- The lines of a file. It is read unless it has been looked at before. -/
def ofFile (kept : SourceLines) (d : Disk) (path : String) : Option (List String) × SourceLines :=
  match kept.get? path with
  | some lines => (lines, kept)
  | none =>
    let lines := (d.readText path).toOption.map Text.lines
    (lines, kept.insert path lines)

/-- A line of a file, counted from one, without blanks around it. -/
def line? (kept : SourceLines) (d : Disk) (path : String) (line : Nat) : Option String × SourceLines :=
  let (lines, kept) := kept.ofFile d path
  match lines, line with
  | some lines, n + 1 => (lines[n]?.map Text.trim, kept)
  | _, _ => (none, kept)

end SourceLines

/-- A write counts before anything else. -/
def ReferenceHit.kind (hit : ReferenceHit) : UsageKind :=
  if hit.isWrite then .write else if hit.isImplicit then .implicit else .read

/-- What is shown of a reference, with its source line unless the engine has sent one. -/
def Usage.ofHit (kept : SourceLines) (d : Disk) (hit : ReferenceHit) : Usage × SourceLines :=
  let (snippet, kept) :=
    match hit.snippet with
    | some snippet => (Text.trim snippet, kept)
    | none =>
      let (line, kept) := kept.line? d hit.location.filePath hit.location.startLine
      (line.getD "", kept)
  ({ filePath := hit.location.filePath
     line := hit.location.startLine
     column := hit.location.startColumn
     snippet
     kind := hit.kind }, kept)

/-- What is shown of references, with the files that are looked at for one kept for the next. -/
def usagesFrom (kept : SourceLines) (d : Disk) : List ReferenceHit → List Usage
  | [] => []
  | hit :: hits =>
    let (usage, kept) := Usage.ofHit kept d hit
    usage :: usagesFrom kept d hits

-- ---------------------------------------------------------------------------
-- Queries
-- ---------------------------------------------------------------------------

/-- The answer of an engine. -/
def fromEngine {α : Type} : Except AnalysisError α → Except QueryError α :=
  Except.mapError QueryError.ofEngine

namespace LoadedSolution

def callers (l : LoadedSolution) (id : String) : Except QueryError Callers := do
  let live ← l.requireLive "get_callers"
  let target ← l.resolveLive live.engine id
  let merged := mergeCallers (← fromEngine (live.engine.callers target.key))
  return ⟨target.key, target.name, merged.take maxCallers, maxCallers < merged.length⟩

def callees (l : LoadedSolution) (id : String) : Except QueryError Callees := do
  let live ← l.requireLive "get_callees"
  let target ← l.resolveLive live.engine id
  let distinct := distinctCallees (← fromEngine (live.engine.operations target.key))
  return ⟨target.key, target.name, distinct.take maxCallees, maxCallees < distinct.length⟩

def usages (l : LoadedSolution) (d : Disk) (id : String) : Except QueryError Usages := do
  let live ← l.requireLive "get_usages"
  let target ← l.resolveLive live.engine id
  let hits ← fromEngine (live.engine.references target.key)
  return {
    symbolId := target.key
    name := target.name
    totalFound := hits.length
    usages := usagesFrom [] d (hits.take maxUsages)
    truncated := maxUsages < hits.length }

end LoadedSolution

end SolutionAtlas
