-- SUMMARY: Which keys of a solution its analysis leaves in the index.
import Mathlib
import SolutionAtlas.Proofs.Analysis.PassIndex
import SolutionAtlas.Proofs.Analysis.Session

/-!
# The keys of a solution

The projects of a solution share one index. A pass adds the keys of its project, and takes out the
entries of the files that are out of date for it; such an entry may be the one that an earlier project
of the same solution has relied on, since a key that is taken is not added again. So the keys that are
missing in the end are those that a pass takes out after the last project that declares them.
-/

namespace SolutionAtlas

/-! ## Passes of a sweep -/

/-- A pass that has succeeded: the index before it, the files that were out of date, and the project. -/
structure SweepPass where
  before : SymbolIndex
  stale : List String
  project : Project

namespace SweepPass

def Declares (p : SweepPass) (key : String) : Prop :=
  DeclaresKey p.project.declared key

/-- The entry of the key is located in no file that was out of date. -/
def Keeps (p : SweepPass) (key : String) : Prop :=
  ∃ e, p.before.get? key = some e ∧ ∀ l ∈ e.symbol.locations, l.filePath ∉ p.stale

/-- The entry of the key is located in a file that was out of date, and the project does not declare it. -/
def TakesOut (p : SweepPass) (key : String) : Prop :=
  (∃ e, p.before.get? key = some e ∧ ∃ l ∈ e.symbol.locations, l.filePath ∈ p.stale) ∧ ¬p.Declares key

theorem takesOut_iff {p : SweepPass} {key : String} :
    p.TakesOut key ↔ p.before.contains key = true ∧ ¬(p.Keeps key ∨ p.Declares key) := by
  rw [TakesOut, Keeps, not_or, ← and_assoc, SymbolIndex.contains_iff]
  refine and_congr_left fun _ => ?_
  cases p.before.get? key <;> simp

/-- Passes one after the other: the first begins with one index, and the last leaves the other. -/
def Chained (x : SymbolIndex) : List SweepPass → SymbolIndex → Prop
  | [], y => x = y
  | p :: ps, y => p.before = x ∧
      ∃ z, (∀ key, z.contains key = true ↔ p.Keeps key ∨ p.Declares key) ∧ Chained z ps y

/-- A key that is not there and that no project declares is not there in the end. -/
theorem Chained.not_contains {x y : SymbolIndex} {ps : List SweepPass} (h : Chained x ps y) {key : String}
    (hx : ¬x.contains key = true) (hps : ∀ p ∈ ps, ¬p.Declares key) : ¬y.contains key = true := by
  induction ps generalizing x with
  | nil =>
    obtain rfl := h
    exact hx
  | cons p ps ih =>
    obtain ⟨rfl, z, hz, hrest⟩ := h
    obtain ⟨hp, hps⟩ := List.forall_mem_cons.mp hps
    refine ih hrest (fun hkey => ?_) hps
    rcases (hz key).mp hkey with ⟨e, he, -⟩ | hdeclares
    · exact hx (SymbolIndex.contains_iff.mpr ⟨e, he⟩)
    · exact hp hdeclares

/-- A key is missing in the end when a pass takes it out after which no project declares it. -/
theorem Chained.missing_iff {x y : SymbolIndex} {ps : List SweepPass} (h : Chained x ps y)
    (key : String) :
    (¬y.contains key = true ∧ (x.contains key = true ∨ ∃ p ∈ ps, p.Declares key)) ↔
      ∃ earlier p later, ps = earlier ++ p :: later ∧ p.TakesOut key ∧ ∀ q ∈ later, ¬q.Declares key := by
  induction ps generalizing x with
  | nil =>
    obtain rfl := h
    simp
  | cons p ps ih =>
    obtain ⟨rfl, z, hz, hrest⟩ := h
    rw [List.exists_mem_cons_iff]
    constructor
    · rintro ⟨hmissing, hsome⟩
      -- If nothing after `p` has the key any more, `p` itself has taken it out.
      by_cases hafter : z.contains key = true ∨ ∃ q ∈ ps, q.Declares key
      · obtain ⟨earlier, q, later, rfl, hq⟩ := (ih hrest).mp ⟨hmissing, hafter⟩
        exact ⟨p :: earlier, q, later, rfl, hq⟩
      · obtain ⟨hz', hlater⟩ := not_or.mp hafter
        rw [hz key] at hz'
        refine ⟨[], p, ps, rfl, takesOut_iff.mpr ⟨?_, hz'⟩, fun q hq hdeclares => hlater ⟨q, hq, hdeclares⟩⟩
        rcases hsome with hx | hp | hq
        · exact hx
        · exact absurd (.inr hp) hz'
        · exact absurd hq hlater
    · rintro ⟨earlier, q, later, heq, htakes, hlater⟩
      cases earlier with
      | nil =>
        cases heq
        obtain ⟨hx, hgone⟩ := takesOut_iff.mp htakes
        rw [← hz key] at hgone
        exact ⟨hrest.not_contains hgone hlater, .inl hx⟩
      | cons p' earlier =>
        cases heq
        obtain ⟨hmissing, hsome⟩ := (ih hrest).mpr ⟨earlier, q, later, rfl, htakes, hlater⟩
        refine ⟨hmissing, ?_⟩
        rcases hsome with hkey | hdeclared
        · rcases (hz key).mp hkey with ⟨e, he, -⟩ | hp
          · exact .inl (SymbolIndex.contains_iff.mpr ⟨e, he⟩)
          · exact .inr (.inl hp)
        · exact .inr (.inr hdeclared)

/-- All declared keys are there in the end just when, after each pass that takes out a key which an
earlier project declares, a later project declares it again. -/
theorem Chained.contains_all_iff {x y : SymbolIndex} {ps : List SweepPass} (h : Chained x ps y) :
    (∀ p ∈ ps, ∀ key, p.Declares key → y.contains key = true) ↔
      ∀ earlier p later, ps = earlier ++ p :: later → ∀ key, p.TakesOut key →
        (∃ q ∈ earlier, q.Declares key) → ∃ q ∈ later, q.Declares key := by
  constructor
  · rintro hall earlier p later rfl key htakes ⟨q, hq, hdeclares⟩
    by_contra hnone
    refine ((h.missing_iff key).mpr ⟨earlier, p, later, rfl, htakes, ?_⟩).1 ?_
    · exact fun r hr hdeclares => hnone ⟨r, hr, hdeclares⟩
    · exact hall q (List.mem_append_left _ hq) key hdeclares
  · intro hagain q hq key hdeclares
    by_contra hmissing
    obtain ⟨earlier, p, later, rfl, htakes, hlater⟩ :=
      (h.missing_iff key).mp ⟨hmissing, .inr ⟨q, hq, hdeclares⟩⟩
    -- Neither `p` nor a later pass declares the key, so the project that does comes before.
    have hearlier : ∃ r ∈ earlier, r.Declares key := by
      rcases List.mem_append.mp hq with hq | hq
      · exact ⟨q, hq, hdeclares⟩
      · rcases List.mem_cons.mp hq with rfl | hq
        · exact absurd hdeclares htakes.2
        · exact absurd hdeclares (hlater q hq)
    obtain ⟨r, hr, hdeclared⟩ := hagain earlier p later rfl key htakes hearlier
    exact hlater r hr hdeclared

end SweepPass

/-! ## Consistency -/

namespace Analyzer

variable {a : Analyzer} {w : Workspace}

/-- A pass keeps the index consistent, whatever becomes of it. -/
theorem consistent_pass (h : a.index.Consistent) (w : Workspace) (call : Call) (manifest : String) :
    (a.pass w call manifest).analyzer.index.Consistent := by
  rcases a.pass_cases w call manifest with ⟨e, hpass⟩ | ⟨project, directory, source, -, -, -, -, hpass⟩
  · rw [hpass]
    exact h
  · rw [hpass]
    have hdropped := consistent_dropFiles h
    rcases a.analyzeSource_cases w call project directory source with
      ⟨done, -, -, hafter, -⟩ | ⟨order, _, -, -, hafter⟩
    · rw [hafter]
      exact consistent_dropFiles (Workspace.consistent_indexJobs (hdropped _) done) _
    · rw [hafter, index_assemble]
      exact (Workspace.consistent_indexJobs (hdropped _) order).putEach _

/-- The files that are out of date for the project of a manifest. -/
def staleFor (a : Analyzer) (w : Workspace) (manifest : String) : List String :=
  match w.disk.canonical manifest with
  | .error _ => []
  | .ok project =>
    match w.provider.loadProject w.disk project, Path.parent? project with
    | .ok source, some directory =>
      (a.planFor w.disk project (source.rootDirs.head?.getD directory) source).stale
    | _, _ => []

/-- After a pass that succeeds, the index holds the keys of the project, and those of the entries that
are located in no file that was out of date. -/
theorem contains_pass (h : a.index.Consistent) {call : Call} {manifest : String}
    {result : Project × AnalysisReport} (hok : (a.pass w call manifest).result = .ok result)
    (key : String) :
    let p : SweepPass := ⟨a.index, a.staleFor w manifest, result.1⟩
    (a.pass w call manifest).analyzer.index.contains key = true ↔ p.Keeps key ∨ p.Declares key := by
  obtain ⟨project, directory, source, order, -, hproject, hsource, hdirectory, horder, hresult, hafter⟩ :=
    pass_succeeds hok
  have hstale : a.staleFor w manifest =
      (a.planFor w.disk project (source.rootDirs.head?.getD directory) source).stale := by
    simp only [staleFor, hproject, hsource, hdirectory]
  intro p
  rw [SymbolIndex.contains_iff, ← Option.isSome_iff_exists, hafter]
  simp only [p, SweepPass.Keeps, SweepPass.Declares, hstale, hresult]
  exact isSome_after_pass h horder.subset key

/-- A pass that fails without being given up changes nothing. -/
theorem pass_error {call : Call} {manifest : String} {e : AnalysisError}
    (h : (a.pass w call manifest).result = .error e) (he : e.isCancelled = false) :
    (a.pass w call manifest).analyzer = a := by
  rcases a.pass_cases w call manifest with ⟨e', hpass⟩ | ⟨project, directory, source, -, -, -, -, hpass⟩
  · rw [hpass]
  · rw [hpass] at h
    rcases a.analyzeSource_cases w call project directory source with
      ⟨done, -, hcancelled, -, -⟩ | ⟨order, report, -, hok, -⟩
    · rw [hcancelled] at h
      cases h
      cases he
    · rw [hok] at h
      cases h

end Analyzer

/-! ## Sweeps -/

/-- The project is left out of an analysis. -/
def AnalyzerConfig.leavesOut (config : AnalyzerConfig) (root : String) (entry : ProjectEntry) : Bool :=
  config.excludeTestProjects && isExcludedProject config.excludedProjectMarkers entry root

namespace Sweep

variable {w : Workspace} {root : String}

/-- The ends of a visit to a project. -/
inductive Visited (w : Workspace) (root : String) (s : Sweep) (entry : ProjectEntry) : Sweep → Prop where
  | givenUp (h : (s.stopped || s.call.cancelled || w.givesUp (.beforeProject entry.manifestPath)) = true) :
    Visited w root s entry { s with stopped := true }
  | leftOut (hs : s.stopped = false) (hcall : s.call.cancelled = false)
    (hout : s.analyzer.config.leavesOut root entry = true) :
    Visited w root s entry
      { s with excludedPackages := s.excludedPackages ++ packagesOf w.disk entry.manifestPath }
  | added (hs : s.stopped = false) (hcall : s.call.cancelled = false)
    (hin : s.analyzer.config.leavesOut root entry = false) {project : Project} {report : AnalysisReport}
    (hok : (s.analyzer.pass w s.call entry.manifestPath).result = .ok (project, report)) :
    Visited w root s entry
      { s with
        analyzer := (s.analyzer.pass w s.call entry.manifestPath).analyzer
        call := (s.analyzer.pass w s.call entry.manifestPath).call
        projects := s.projects ++ [project]
        report := s.report.absorb report }
  | failed (hs : s.stopped = false) (hcall : s.call.cancelled = false)
    (hin : s.analyzer.config.leavesOut root entry = false) {e : AnalysisError}
    (herror : (s.analyzer.pass w s.call entry.manifestPath).result = .error e) :
    Visited w root s entry
      { s with
        analyzer := (s.analyzer.pass w s.call entry.manifestPath).analyzer
        call := (s.analyzer.pass w s.call entry.manifestPath).call
        stopped := e.isCancelled }

theorem visited (s : Sweep) (w : Workspace) (root : String) (entry : ProjectEntry) :
    Visited w root s entry (s.visit w root entry) := by
  unfold visit
  dsimp only
  split
  · rename_i hstop
    exact .givenUp hstop
  · rename_i hgo
    simp only [Bool.or_eq_true, not_or, Bool.not_eq_true] at hgo
    obtain ⟨⟨hs, hcall⟩, -⟩ := hgo
    split
    · rename_i hout
      exact .leftOut hs hcall hout
    · rename_i hin
      have hin' : s.analyzer.config.leavesOut root entry = false := Bool.eq_false_iff.mpr hin
      split
      · rename_i project report hok
        exact .added hs hcall hin' hok
      · rename_i e herror
        have hend := Visited.failed hs hcall hin' herror
        exact hend

/-- The passes over projects of a solution that succeed: those that add a project. -/
def passes (w : Workspace) (root : String) (s : Sweep) : List ProjectEntry → List SweepPass
  | [] => []
  | entry :: rest =>
    let next := s.visit w root entry
    (next.projects.drop s.projects.length).map
        (⟨s.analyzer.index, s.analyzer.staleFor w entry.manifestPath, ·⟩) ++
      passes w root next rest

/-- A sweep that is not stopped passes over a project or has passed it with success. -/
theorem visit_cases (s : Sweep) (entry : ProjectEntry) (hgoes : (s.visit w root entry).stopped = false) :
    ((s.visit w root entry).analyzer = s.analyzer ∧ (s.visit w root entry).projects = s.projects) ∨
      ∃ project report, (s.analyzer.pass w s.call entry.manifestPath).result = .ok (project, report) ∧
        (s.visit w root entry).analyzer = (s.analyzer.pass w s.call entry.manifestPath).analyzer ∧
        (s.visit w root entry).projects = s.projects ++ [project] := by
  have hend := s.visited w root entry
  generalize s.visit w root entry = s' at hend hgoes ⊢
  cases hend with
  | givenUp => cases hgoes
  | leftOut => exact .inl ⟨rfl, rfl⟩
  | added _ _ _ hok => exact .inr ⟨_, _, hok, rfl, rfl⟩
  | failed _ _ _ herror => exact .inl ⟨Analyzer.pass_error herror hgoes, rfl⟩

theorem consistent_visit {s : Sweep} (h : s.analyzer.index.Consistent) (entry : ProjectEntry) :
    (s.visit w root entry).analyzer.index.Consistent := by
  have hpass := Analyzer.consistent_pass h w s.call entry.manifestPath
  have hend := s.visited w root entry
  generalize s.visit w root entry = s' at hend ⊢
  cases hend with
  | givenUp => exact h
  | leftOut => exact h
  | added => exact hpass
  | failed => exact hpass

theorem stopped_foldl {s : Sweep} (h : s.stopped = true) (entries : List ProjectEntry) :
    (entries.foldl (visit w root) s).stopped = true := by
  induction entries generalizing s with
  | nil => exact h
  | cons entry entries ih =>
    refine ih ?_
    simp [visit, h]

theorem not_stopped_of_foldl {s : Sweep} {entries : List ProjectEntry}
    (h : (entries.foldl (visit w root) s).stopped = false) : s.stopped = false := by
  by_contra hstop
  rw [stopped_foldl (Bool.eq_true_of_not_eq_false hstop)] at h
  cases h

/-- A sweep that is not stopped has the projects of its passes, which lead from one index to the
other. -/
theorem chained_passes {s : Sweep} (h : s.analyzer.index.Consistent) (entries : List ProjectEntry)
    (hgoes : (entries.foldl (visit w root) s).stopped = false) :
    (entries.foldl (visit w root) s).projects =
        s.projects ++ (s.passes w root entries).map (·.project) ∧
      SweepPass.Chained s.analyzer.index (s.passes w root entries)
        (entries.foldl (visit w root) s).analyzer.index := by
  induction entries generalizing s with
  | nil => exact ⟨(List.append_nil _).symm, rfl⟩
  | cons entry entries ih =>
    have hnext : (s.visit w root entry).stopped = false := not_stopped_of_foldl hgoes
    obtain ⟨hprojects, hchained⟩ := ih (consistent_visit h entry) hgoes
    rw [List.foldl_cons, passes, hprojects]
    rcases s.visit_cases entry hnext with ⟨hsame, hnone⟩ | ⟨project, report, hok, hafter, hone⟩
    · rw [hsame] at hchained
      rw [hnone, List.drop_length, List.map_nil, List.nil_append]
      exact ⟨rfl, hchained⟩
    · rw [hone, List.drop_left]
      refine ⟨?_, rfl, _, fun key => ?_, hchained⟩
      · simp
      · rw [hafter]
        exact Analyzer.contains_pass h hok key

/-- Totals and conventions leave the projects as they are. -/
theorem projects_solution (s : Sweep) (d : Disk) (layout : Layout) :
    (s.solution d layout).projects = s.projects := by
  unfold solution
  dsimp only
  split
  · rfl
  · split <;> rfl

end Sweep

/-! ## Calls for solutions -/

namespace Analyzer

variable {a : Analyzer} {w : Workspace} {call : Call} {path : String}

/-- The passes of a call for a solution that succeed. -/
def sweepPasses (a : Analyzer) (w : Workspace) (call : Call) (path : String) : List SweepPass :=
  match Layout.discover w.disk path with
  | .error _ => []
  | .ok layout => Sweep.passes w layout.root { analyzer := a, call } layout.projects

/-- A call that succeeds has gone through all projects of the layout. -/
theorem analyzeSolution_ok {solution : Solution}
    (hok : (a.analyzeSolution w call path).result = .ok solution) :
    ∃ layout, Layout.discover w.disk path = .ok layout ∧
      let last := layout.projects.foldl (Sweep.visit w layout.root) { analyzer := a, call }
      last.stopped = false ∧ solution = last.solution w.disk layout ∧
        (a.analyzeSolution w call path).analyzer =
          { last.analyzer with lastReport := { last.report with projects := last.projects.length } } := by
  unfold analyzeSolution at hok ⊢
  by_cases hcall : call.cancelled = true
  · rw [if_pos hcall] at hok
    cases hok
  · rw [if_neg hcall] at hok ⊢
    cases hlayout : Layout.discover w.disk path with
    | error e =>
      rw [hlayout] at hok
      cases hok
    | ok layout =>
      rw [hlayout] at hok
      dsimp only at hok ⊢
      by_cases hstopped : (layout.projects.foldl (Sweep.visit w layout.root)
          { analyzer := a, call }).stopped = true
      · rw [if_pos hstopped] at hok
        cases hok
      · rw [if_neg hstopped] at hok ⊢
        exact ⟨layout, rfl, Bool.eq_false_iff.mpr hstopped, (Except.ok.inj hok).symm, rfl⟩

/-- A call that succeeds gives the projects of its passes, which lead from the index before it to the
index after it. -/
theorem chained_sweepPasses (h : a.index.Consistent) {solution : Solution}
    (hok : (a.analyzeSolution w call path).result = .ok solution) :
    solution.projects = (a.sweepPasses w call path).map (·.project) ∧
      SweepPass.Chained a.index (a.sweepPasses w call path)
        (a.analyzeSolution w call path).analyzer.index := by
  obtain ⟨layout, hlayout, hgoes, rfl, hafter⟩ := analyzeSolution_ok hok
  have hpasses : a.sweepPasses w call path =
      Sweep.passes w layout.root { analyzer := a, call } layout.projects := by
    rw [sweepPasses, hlayout]
  obtain ⟨hprojects, hchained⟩ := Sweep.chained_passes (s := { analyzer := a, call }) h
    layout.projects hgoes
  rw [hpasses, hafter, Sweep.projects_solution, hprojects]
  exact ⟨List.nil_append _, hchained⟩

theorem consistent_analyzeSolution (h : a.index.Consistent) (w : Workspace) (call : Call)
    (path : String) : (a.analyzeSolution w call path).analyzer.index.Consistent := by
  unfold analyzeSolution
  split
  · exact h
  · split
    · exact h
    · rename_i layout _
      have hsweep : (layout.projects.foldl (Sweep.visit w layout.root)
          { analyzer := a, call }).analyzer.index.Consistent := by
        refine List.foldlRecOn layout.projects _ (motive := fun s : Sweep => s.analyzer.index.Consistent) h ?_
        exact fun s hs entry _ => Sweep.consistent_visit hs entry
      dsimp only
      split
      · exact hsweep
      · exact hsweep

end Analyzer

theorem Session.consistent_step {s : Session} (h : s.analyzer.index.Consistent) (e : Event) :
    (s.step e).analyzer.index.Consistent := by
  cases e with
  | edit change => exact h
  | analyzeProject m manifest =>
    obtain ⟨report, hafter⟩ := s.analyzer.analyzer_analyzeProject (m.workspace s.disk) m.call manifest
    simp only [step, hafter]
    exact Analyzer.consistent_pass h _ _ _
  | analyzeSolution m path => exact Analyzer.consistent_analyzeSolution h _ _ _

/-- After any changes of the files and any calls, a call for a solution that succeeds leaves all keys
of the solution in the index just when none is lost on the way: when every key that a pass takes out,
though an earlier project of the solution declares it, is declared again by a later one. -/
theorem Session.contains_solution_iff {config : AnalyzerConfig} {a : Analyzer}
    (ha : Analyzer.ofConfig config = .ok a) {events : List Event} {s : Session}
    (hs : (Session.start a).run events = s) {m : Manner} {path : String} {solution : Solution}
    (hok : (s.analyzer.analyzeSolution (m.workspace s.disk) m.call path).result = .ok solution) :
    (∀ project ∈ solution.projects, ∀ key, DeclaresKey project.declared key →
      (s.analyzer.analyzeSolution (m.workspace s.disk) m.call path).analyzer.index.contains key = true) ↔
      ∀ earlier p later,
        s.analyzer.sweepPasses (m.workspace s.disk) m.call path = earlier ++ p :: later →
        ∀ key, p.TakesOut key → (∃ q ∈ earlier, q.Declares key) → ∃ q ∈ later, q.Declares key := by
  obtain ⟨-, -, -, hempty⟩ := Analyzer.ofConfig_ok ha
  have hindex : s.analyzer.index.Consistent := by
    have hnew : (Session.start a).analyzer.index.Consistent := by
      rw [start, hempty]
      exact .empty
    exact hs ▸ run_induction (P := fun _ => True) (I := fun s => s.analyzer.index.Consistent)
      (fun _ e _ h => consistent_step h e) hnew fun _ _ => trivial
  obtain ⟨hprojects, hchained⟩ := Analyzer.chained_sweepPasses hindex hok
  rw [hprojects, ← hchained.contains_all_iff]
  exact List.forall_mem_map

/-! ## A type that is moved -/

namespace Session.Moved

open CSharp

/-- The text of the document that is moved. -/
def text : String := "class K { }"

def outline : Outline where
  namespaces := [⟨globalNamespace,
    [⟨"T:K", "K", "K", .classType, .internalAccess, [], [], none, none, [], [], ⟨1, 1, 1, 12⟩, []⟩]⟩]
  lineCount := 1

theorem ofSource_text : Outline.ofSource text = outline := by
  have htokens : tokens text =
      [⟨.word, [], "class".toList, ⟨0, 0⟩, ⟨0, 5⟩⟩, ⟨.word, [' '], ['K'], ⟨0, 6⟩, ⟨0, 7⟩⟩,
        ⟨.symbol, [' '], ['\x7b'], ⟨0, 8⟩, ⟨0, 9⟩⟩, ⟨.symbol, [' '], ['\x7d'], ⟨0, 10⟩, ⟨0, 11⟩⟩] := by
    decide +kernel
  have hitems : Item.ofSource text =
      [.type ⟨.classForm, [], [], "K", [], [], [], ⟨1, 1, 1, 12⟩⟩ []] := by
    rw [Item.ofSource, htokens]
    rfl
  have hlines : (Text.lines text).length = 1 := by decide +kernel
  have hheader : hasGeneratedHeader text = false := by decide +kernel
  rw [Outline.ofSource, hlines, hheader, hitems]
  simp only [Outline.ofItems, collectItems, collectType, collectNested]
  rfl

/-- A solution of two projects is analyzed, and then the document of the second is moved to the first.
The manifests are hidden, so that a scan of a project lists the document alone. -/
def events (p : Provider) : List Event :=
  [.edit (.write 1 "/S.slnx"
      ⟨"<Project Path=\"A/.a.csproj\" /><Project Path=\"B/.b.csproj\" />".toUTF8, 1⟩),
    .edit (.write 1 "/A/.a.csproj" ⟨.empty, 1⟩),
    .edit (.write 1 "/B/.b.csproj" ⟨.empty, 1⟩),
    .edit (.write 1 "/B/K.cs" ⟨text.toUTF8, 1⟩),
    .analyzeSolution { provider := p } "/S.slnx",
    .edit (.remove "/B/K.cs"),
    .edit (.write 2 "/A/K.cs" ⟨text.toUTF8, 2⟩)]

def session (p : Provider) : Session :=
  (start Example.new).run (events p)

/-- The solution is analyzed again. -/
def call (p : Provider) : Analyzer.Outcome Solution :=
  (session p).analyzer.analyzeSolution (Manner.workspace { provider := p } (session p).disk) {} "/S.slnx"

/-- The type is in the solution, but its key is not in the index. -/
theorem missing : ∃ solution, (call .workspace).result = .ok solution ∧
    (∃ project ∈ solution.projects, DeclaresKey project.declared "T:K") ∧
    (call .workspace).analyzer.index.contains "T:K" = false := by
  have hrun : ((call (.knowing text outline)).result.toOption.any fun solution =>
        solution.projects.any fun project => project.declared.any (·.key == "T:K")) = true ∧
      (call (.knowing text outline)).analyzer.index.contains "T:K" = false := by
    decide +kernel
  rw [Provider.knowing_eq ofSource_text] at hrun
  obtain ⟨hdeclared, hmissing⟩ := hrun
  obtain ⟨solution, hresult, hdeclares⟩ := Except.exists_ok_of_any hdeclared
  obtain ⟨project, hproject, hany⟩ := List.any_eq_true.mp hdeclares
  obtain ⟨p, hp, hkey⟩ := List.any_eq_true.mp hany
  exact ⟨solution, hresult, ⟨project, hproject, p, hp, .inl (beq_iff_eq.mp hkey)⟩, hmissing⟩

end Session.Moved

/-- The pass over the second project takes out the type, which is declared by the first. -/
theorem Session.contains_solution_iff_moved :
    ∃ solution, (Moved.call .workspace).result = .ok solution ∧
      ¬(∀ project ∈ solution.projects, ∀ key, DeclaresKey project.declared key →
        (Moved.call .workspace).analyzer.index.contains key = true) ∧
      ∃ earlier p later, (Moved.session .workspace).analyzer.sweepPasses
          (Manner.workspace {} (Moved.session .workspace).disk) {} "/S.slnx" = earlier ++ p :: later ∧
        ∃ key, p.TakesOut key ∧ (∃ q ∈ earlier, q.Declares key) ∧ ∀ q ∈ later, ¬q.Declares key := by
  have hnew : Analyzer.ofConfig {} = .ok Example.new := rfl
  have hs : (start Example.new).run (Moved.events .workspace) = Moved.session .workspace := rfl
  obtain ⟨solution, hok, ⟨project, hproject, hdeclares⟩, hmissing⟩ := Moved.missing
  unfold Moved.call at hok hmissing ⊢
  generalize Moved.session .workspace = s at hs hok hmissing ⊢
  have hnotAll : ¬(∀ project ∈ solution.projects, ∀ key, DeclaresKey project.declared key →
      (s.analyzer.analyzeSolution (Manner.workspace {} s.disk) {} "/S.slnx").analyzer.index.contains
        key = true) := by
    intro hall
    rw [hall project hproject _ hdeclares] at hmissing
    cases hmissing
  refine ⟨solution, hok, hnotAll, ?_⟩
  have hnot := mt (contains_solution_iff hnew hs hok).mpr hnotAll
  by_contra hnone
  refine hnot fun earlier p later hpasses key htakes hearlier => ?_
  by_contra hlater
  exact hnone ⟨earlier, p, later, hpasses, key, htakes, hearlier, fun q hq h => hlater ⟨q, hq, h⟩⟩

end SolutionAtlas
