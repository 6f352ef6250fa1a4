-- SUMMARY: The settings of an analysis, their file and what overrides it.
import SolutionAtlas.Analysis.Report
import SolutionAtlas.Toml.Reader
import SolutionAtlas.Text.Lowercase

/-!
# Settings

Settings come from a file at the root of a solution, and a few of them may be overridden from the
environment. Whatever is not given has a default; an override that makes no sense is passed over.
-/

namespace SolutionAtlas

structure CacheConfig where
  enabled : Bool := false
  dir : Option String := none
  ttlSecs : Nat := 86400
  deriving Repr, DecidableEq

/-- Parts of names that mark the projects of tests and samples. -/
def defaultMarkers : List String :=
  ["Test", "Tests", "Sample", "Samples", "Example", "Examples", "Benchmark", "Benchmarks"]

structure AnalyzerConfig where
  /-- How many documents are analyzed at a time. -/
  maxConcurrency : Nat := 16
  includePrivateMembers : Bool := false
  includeForwardingMethods : Bool := false
  excludeTestProjects : Bool := true
  excludedProjectMarkers : List String := defaultMarkers
  excludePatterns : List String := []
  /-- How many directories above a project are searched for its editor settings. -/
  editorConfigSearchDepth : Nat := 5
  cache : CacheConfig := {}
  deriving Repr, DecidableEq

open Json in
instance : JsonForm CacheConfig where
  toJson c := record [
    member "enabled" c.enabled, member "dir" c.dir, member "ttl_secs" c.ttlSecs]
  ofJson? j := do
    let f ← fields? ["enabled", "dir", "ttl_secs"] j
    let c : CacheConfig := {}
    return {
      enabled := ← f.orElse "enabled" c.enabled
      dir := ← f.orElse "dir" c.dir
      ttlSecs := ← f.orElse "ttl_secs" c.ttlSecs }

open Json in
instance : JsonForm AnalyzerConfig where
  toJson c := record [
    member "max_concurrency" c.maxConcurrency,
    member "include_private_members" c.includePrivateMembers,
    member "include_forwarding_methods" c.includeForwardingMethods,
    member "exclude_test_projects" c.excludeTestProjects,
    member "excluded_project_markers" c.excludedProjectMarkers,
    member "exclude_patterns" c.excludePatterns,
    member "editor_config_search_depth" c.editorConfigSearchDepth,
    member "cache" c.cache]
  ofJson? j := do
    let f ← fields? ["max_concurrency", "include_private_members", "include_forwarding_methods",
      "exclude_test_projects", "excluded_project_markers", "exclude_patterns",
      "editor_config_search_depth", "cache"] j
    let c : AnalyzerConfig := {}
    return {
      maxConcurrency := ← f.orElse "max_concurrency" c.maxConcurrency
      includePrivateMembers := ← f.orElse "include_private_members" c.includePrivateMembers
      includeForwardingMethods := ← f.orElse "include_forwarding_methods" c.includeForwardingMethods
      excludeTestProjects := ← f.orElse "exclude_test_projects" c.excludeTestProjects
      excludedProjectMarkers := ← f.orElse "excluded_project_markers" c.excludedProjectMarkers
      excludePatterns := ← f.orElse "exclude_patterns" c.excludePatterns
      editorConfigSearchDepth := ← f.orElse "editor_config_search_depth" c.editorConfigSearchDepth
      cache := ← f.orElse "cache" c.cache }

/-- The name of the file that holds settings. -/
def configFileName : String := ".codeintel.toml"

/-- The name of the directory that holds cached solutions where none is configured. -/
def cacheDirName : String := "codeintel-cache"

namespace AnalyzerConfig

/-- Reads the text of a settings file. -/
def read (text : String) : Except AnalysisError AnalyzerConfig :=
  match (Toml.read? text).bind fun t => Json.as? AnalyzerConfig t.toJson with
  | some c => .ok c
  | none => .error (.config "TOML parse error")

/-- At least one document at a time. -/
def concurrency (c : AnalyzerConfig) : Nat :=
  max c.maxConcurrency 1

-- ---------------------------------------------------------------------------
-- Overrides
-- ---------------------------------------------------------------------------

/-- A number of up to 64 bits in decimal digits, perhaps behind a plus. -/
def parseNumber? (text : String) : Option Nat :=
  let digits :=
    match (Text.trim text).toList with
    | '+' :: ds => ds
    | ds => ds
  if digits.isEmpty || !digits.all Char.isDigit then none
  else
    let n := Json.digitsValue digits
    if n ≤ maxWord64 then some n else none

/-- A flag in one of its spellings. -/
def parseFlag? (text : String) : Option Bool :=
  let word := Text.lowerAscii (Text.trim text)
  if ["1", "true", "yes", "on"].contains word then some true
  else if ["0", "false", "no", "off"].contains word then some false
  else none

/-- The settings with what the environment overrides. -/
def override (lookup : String → Option String) (c : AnalyzerConfig) : AnalyzerConfig :=
  let concurrency := ((lookup "CODEINTEL_MAX_CONCURRENCY").bind parseNumber?).filter (0 < ·)
  let includePrivate := (lookup "CODEINTEL_INCLUDE_PRIVATE").bind parseFlag?
  let dir := (lookup "CODEINTEL_CACHE_DIR").bind Text.nonBlank?
  let ttl := (lookup "CODEINTEL_CACHE_TTL_SECS").bind parseNumber?
  { c with
    maxConcurrency := concurrency.getD c.maxConcurrency
    includePrivateMembers := includePrivate.getD c.includePrivateMembers
    cache := {
      enabled := c.cache.enabled || dir.isSome
      dir := dir.or c.cache.dir
      ttlSecs := ttl.getD c.cache.ttlSecs } }

end AnalyzerConfig

end SolutionAtlas
