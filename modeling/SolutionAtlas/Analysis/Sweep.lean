-- SUMMARY: Analysis of all projects of a solution.
import SolutionAtlas.Analysis.Analyzer

/-!
# Analysis of a solution

The projects of a solution are analyzed one after the other. Projects of tests and samples are left
out, except that their packages tell the test framework. A project that fails is passed over; only
giving up ends the whole.
-/

namespace SolutionAtlas

/-- Characters between the words of a project's name. -/
def isNameBreak (c : Char) : Bool :=
  c == '.' || c == '-' || c == '_' || Text.isBlank c

/-- The project is marked as one of tests or samples: by a word of its name, by the end of its name,
or by a folder between the root and its manifest. -/
def isExcludedProject (markers : List String) (entry : ProjectEntry) (root : String) : Bool :=
  let words := (Text.splitChars isNameBreak entry.name.toList).filter (!·.isEmpty)
  let relative := (Path.strip? root entry.manifestPath).getD entry.manifestPath
  let folders := ((Path.parent? relative).map Path.components).getD []
  words.any (fun word => markers.any (Text.eqIgnoreCase (String.ofList word))) ||
    markers.any (Text.endsWith entry.name) ||
    folders.any (fun c => markers.any (Text.eqIgnoreCase c.text))

/-- The packages of a manifest, none when it cannot be read. -/
def packagesOf (d : Disk) (manifest : String) : List PackageReference :=
  match d.readText manifest, Path.parent? manifest with
  | .ok text, some directory => (Manifest.read text directory).packageReferences
  | _, _ => []

/-- An analysis of a solution in progress. -/
structure Sweep where
  analyzer : Analyzer
  call : Call
  projects : List Project := []
  report : AnalysisReport := {}
  /-- The packages of the projects that are left out. -/
  excludedPackages : List PackageReference := []
  /-- The caller has given up. -/
  stopped : Bool := false

namespace Sweep

/-- Analyzes a project of the solution. -/
def visit (w : Workspace) (root : String) (s : Sweep) (entry : ProjectEntry) : Sweep :=
  let config := s.analyzer.config
  if s.stopped || s.call.cancelled || w.givesUp (.beforeProject entry.manifestPath) then
    { s with stopped := true }
  else if config.excludeTestProjects && isExcludedProject config.excludedProjectMarkers entry root then
    { s with excludedPackages := s.excludedPackages ++ packagesOf w.disk entry.manifestPath }
  else
    let o := s.analyzer.pass w s.call entry.manifestPath
    let s := { s with analyzer := o.analyzer, call := o.call }
    match o.result with
    | .ok (project, report) =>
      { s with projects := s.projects ++ [project], report := s.report.absorb report }
    | .error e => { s with stopped := e.isCancelled }

/-- The solution of a layout, once its projects are analyzed. -/
def solution (s : Sweep) (d : Disk) (layout : Layout) : Solution :=
  let raw : Solution := { name := layout.name, path := layout.path, projects := s.projects }
  let whole := { raw with conventions := { raw.conventions with
    testFramework := Detect.testFramework? s.excludedPackages } }.withTotals
  if whole.conventions.hasEditorConfig then whole
  else
    match findEditorConfig? d s.analyzer.config.editorConfigSearchDepth layout.root with
    | none => whole
    | some path =>
      { whole with conventions := { whole.conventions with
          hasEditorConfig := true
          editorConfigPath := some path } }

end Sweep

/-- Analyzes the solution that a path stands for. -/
def Analyzer.analyzeSolution (a : Analyzer) (w : Workspace) (call : Call) (path : String) :
    Analyzer.Outcome Solution :=
  if call.cancelled then ⟨.error .cancelled, a, call⟩
  else
    match Layout.discover w.disk path with
    | .error e => ⟨.error e, a, call⟩
    | .ok layout =>
      let s := layout.projects.foldl (Sweep.visit w layout.root) { analyzer := a, call }
      if s.stopped then ⟨.error .cancelled, s.analyzer, s.call⟩
      else
        let report := { s.report with projects := s.projects.length }
        ⟨.ok (s.solution w.disk layout), { s.analyzer with lastReport := report }, s.call⟩

end SolutionAtlas
