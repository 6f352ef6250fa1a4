-- SUMMARY: What a report counts: each document of a pass once, and over a solution the sums of its passes.
import Mathlib
import SolutionAtlas.Proofs.Analysis.SweepKeys
import SolutionAtlas.Proofs.Path.Course

/-!
# Counts of a report

A pass decides about every document that is listed for it: it is left out, cannot be looked up, is taken over, or is
analyzed with one of three ends. Whatever comes of a document adds one to one counter of the report, and to the list
of errors when it failed. The report of a solution sums up those of the passes that its projects come from.
-/

namespace SolutionAtlas

/-! ## Distinct paths -/

namespace Path

variable {path : String}

/-- Of every path in a list one with its plain spelling is there when the list is in order. -/
theorem exists_mem_sorted {paths : List String} (h : path ∈ paths) : ∃ p ∈ sorted paths, tidy p = tidy path := by
  simp only [sorted, List.mem_mergeSort]
  induction paths with
  | nil => cases h
  | cons q paths ih =>
    rw [List.foldr_cons]
    split
    · rename_i hagain
      rcases List.mem_cons.mp h with rfl | h
      · obtain ⟨p, hp, heq⟩ := List.any_eq_true.mp hagain
        exact ⟨p, hp, beq_iff_eq.mp heq⟩
      · exact ih h
    · rcases List.mem_cons.mp h with rfl | h
      · exact ⟨path, List.mem_cons_self, rfl⟩
      · obtain ⟨p, hp, heq⟩ := ih h
        exact ⟨p, List.mem_cons_of_mem q hp, heq⟩

/-- Two paths are the same when their components are, and each is listed once. -/
theorem length_sorted (paths : List String) : (sorted paths).length = (paths.map components).dedup.length := by
  have hnodup : ((sorted paths).map components).Nodup := by
    refine List.Nodup.of_map ofComponents ?_
    rw [List.map_map]
    exact sorted_nodup paths
  rw [← List.length_map components]
  refine List.Perm.length_eq ((List.perm_ext_iff_of_nodup hnodup (List.nodup_dedup _)).mpr fun cs => ?_)
  rw [List.mem_dedup]
  constructor
  · intro hcs
    obtain ⟨p, hp, rfl⟩ := List.mem_map.mp hcs
    exact List.mem_map_of_mem (mem_of_mem_sorted hp)
  · intro hcs
    obtain ⟨p, hp, rfl⟩ := List.mem_map.mp hcs
    obtain ⟨q, hq, htidy⟩ := exists_mem_sorted hp
    rw [← components_tidy p, ← htidy, components_tidy q]
    exact List.mem_map_of_mem hq

end Path

/-! ## One document -/

namespace AnalysisReport

/-- The report counts every one of some documents once, and tells the error of each that failed. -/
structure Accounts (r : AnalysisReport) (documents : Nat) : Prop where
  total : r.analyzed + r.reused + r.failed + r.skipped = documents
  errors : r.errors.length = r.failed

theorem Accounts.count {r : AnalysisReport} {n : Nat} (h : r.Accounts n)
    (outcome : Except String AnalyzedDocument) : (Analyzer.count r outcome).Accounts (n + 1) := by
  obtain ⟨htotal, herrors⟩ := h
  cases outcome with
  | error text =>
    refine ⟨?_, ?_⟩
    · simp only [Analyzer.count, addFailure]
      omega
    · simp [Analyzer.count, addFailure, herrors]
  | ok document =>
    rw [Analyzer.count]
    split
    · exact ⟨by dsimp only; omega, herrors⟩
    · exact ⟨by dsimp only; omega, herrors⟩

theorem Accounts.foldl_count {r : AnalysisReport} {n : Nat} (h : r.Accounts n)
    (outcomes : List (Except String AnalyzedDocument)) :
    (outcomes.foldl Analyzer.count r).Accounts (n + outcomes.length) := by
  induction outcomes generalizing r n with
  | nil => exact h
  | cons outcome outcomes ih =>
    rw [List.foldl_cons, List.length_cons, Nat.add_comm outcomes.length, ← Nat.add_assoc]
    exact ih (h.count outcome)

end AnalysisReport

/-! ## One pass -/

namespace Stamped

/-- How many documents have been told apart. -/
def size (s : Stamped) : Nat :=
  s.jobs.length + s.skipped + s.failures.length

theorem size_add (d : Disk) (exclude : ExcludeFilter) (root : String) (s : Stamped) (path : String) :
    (add d exclude root s path).size = s.size + 1 := by
  unfold add
  dsimp only
  split
  · simp only [size]
    omega
  · split
    · simp only [size, List.length_append, List.length_singleton]
      omega
    · simp only [size, List.length_append, List.length_singleton]
      omega

theorem size_ofPaths (d : Disk) (exclude : ExcludeFilter) (root : String) (paths : List String) :
    (ofPaths d exclude root paths).size = (paths.map Path.components).dedup.length := by
  have hfold (ps : List String) (s : Stamped) : (ps.foldl (add d exclude root) s).size = s.size + ps.length := by
    induction ps generalizing s with
    | nil => rfl
    | cons p ps ih =>
      rw [List.foldl_cons, ih, size_add, List.length_cons]
      omega
  rw [ofPaths, hfold, Path.length_sorted]
  exact Nat.zero_add _

end Stamped

theorem Plan.stamped_ofStamped (previous : Table AnalyzedDocument) (stamped : Stamped) :
    (ofStamped previous stamped).stamped = stamped := rfl

/-- Every document that enters the analysis is taken over or analyzed. -/
theorem Plan.length_reused_add_changed {stamped : Stamped} (previous : Table AnalyzedDocument)
    (hnodup : (stamped.jobs.map fun j => Path.tidy j.path).Nodup) :
    (ofStamped previous stamped).reused.length + (ofStamped previous stamped).changed.length =
      stamped.jobs.length := by
  have hreused : (ofStamped previous stamped).reused.length =
      stamped.jobs.countP fun j => (reusable? previous j).isSome := by
    rw [reused_eq, Table.length_fill hnodup fun _ _ => List.not_mem_nil]
    exact Nat.zero_add _
  have hchanged : (ofStamped previous stamped).changed.length =
      stamped.jobs.countP fun j => decide ¬(reusable? previous j).isSome = true := by
    rw [ofStamped, List.countP_eq_length_filter]
    refine congrArg List.length (List.filter_congr fun j _ => ?_)
    cases reusable? previous j <;> rfl
  rw [hreused, hchanged, ← List.length_eq_countP_add_countP]

theorem Analyzer.accounts_reportOf {plan : Plan} {outcomes : List (Except String AnalyzedDocument)}
    (hplan : plan.reused.length + plan.changed.length = plan.stamped.jobs.length)
    (houtcomes : outcomes.length = plan.changed.length) :
    (reportOf plan outcomes).Accounts plan.stamped.size := by
  have hstart : ({
      projects := 1
      reused := plan.reused.length
      failed := plan.stamped.failures.length
      skipped := plan.stamped.skipped
      errors := plan.stamped.failures } : AnalysisReport).Accounts
        (plan.reused.length + plan.stamped.failures.length + plan.stamped.skipped) :=
    ⟨by dsimp only; omega, rfl⟩
  have hcounted := hstart.foldl_count outcomes
  have hsize : plan.reused.length + plan.stamped.failures.length + plan.stamped.skipped + outcomes.length =
      plan.stamped.size := by
    rw [Stamped.size, ← hplan, houtcomes]
    omega
  exact hsize ▸ hcounted

namespace Analyzer

variable {a : Analyzer} {w : Workspace} {call : Call}

/-- The report of a pass accounts for the documents that are listed for the project, whatever became of
them. -/
theorem accounts_pass {manifest : String} {result : Project × AnalysisReport}
    (h : (a.pass w call manifest).result = .ok result) :
    ∃ full source, w.disk.canonical manifest = .ok full ∧ w.provider.loadProject w.disk full = .ok source ∧
      result.2.Accounts (source.documents.map Path.components).dedup.length := by
  rcases pass_cases a w call manifest with
    ⟨e, hpass⟩ | ⟨full, directory, source, -, hfull, hsource, -, hpass⟩
  · rw [hpass] at h
    cases h
  · refine ⟨full, source, hfull, hsource, ?_⟩
    rw [hpass] at h
    rcases analyzeSource_ends a w call full directory source with
      ⟨_, -, hcancelled, -⟩ | ⟨order, horder, hok, -⟩
    · rw [hcancelled] at h
      cases h
    · rw [hok] at h
      cases h
      let stamped := Stamped.ofPaths w.disk a.exclude (source.rootDirs.head?.getD directory) source.documents
      have hnodup : (stamped.jobs.map fun j => Path.tidy j.path).Nodup := Stamped.jobs_nodup
      have hplan := Plan.length_reused_add_changed (a.documentsOf full) hnodup
      have houtcomes : ((w.outcomesOf a.options order).map (·.2)).length = order.length := by
        rw [List.length_map, Workspace.outcomesOf, List.length_map]
      have hreport := accounts_reportOf hplan (houtcomes.trans horder.perm.length_eq)
      rwa [Plan.stamped_ofStamped, Stamped.size_ofPaths] at hreport

theorem accounts_analyzeProject {manifest : String} {project : Project}
    (h : (a.analyzeProject w call manifest).result = .ok project) :
    ∃ full source, w.disk.canonical manifest = .ok full ∧ w.provider.loadProject w.disk full = .ok source ∧
      (a.analyzeProject w call manifest).analyzer.lastReport.Accounts
        (source.documents.map Path.components).dedup.length := by
  unfold analyzeProject at h ⊢
  dsimp only at h ⊢
  cases hpass : (a.pass w call manifest).result with
  | error e =>
    rw [hpass] at h
    cases h
  | ok result => exact accounts_pass hpass

end Analyzer

/-! ## All projects of a solution -/

namespace AnalysisReport

/-- The report counts as many projects as there are others, and what these count, with their errors in
their order. -/
structure SumsUp (r : AnalysisReport) (parts : List AnalysisReport) : Prop where
  projects : r.projects = parts.length
  analyzed : r.analyzed = totalOf (·.analyzed) parts
  reused : r.reused = totalOf (·.reused) parts
  failed : r.failed = totalOf (·.failed) parts
  skipped : r.skipped = totalOf (·.skipped) parts
  errors : r.errors = parts.flatMap (·.errors)

theorem foldl_absorb (r : AnalysisReport) (parts : List AnalysisReport) :
    parts.foldl absorb r =
      { r with
        projects := r.projects + totalOf (·.projects) parts
        analyzed := r.analyzed + totalOf (·.analyzed) parts
        reused := r.reused + totalOf (·.reused) parts
        failed := r.failed + totalOf (·.failed) parts
        skipped := r.skipped + totalOf (·.skipped) parts
        errors := r.errors ++ parts.flatMap (·.errors) } := by
  induction parts generalizing r with
  | nil => simp [totalOf]
  | cons part parts ih =>
    rw [List.foldl_cons, ih]
    simp [absorb, totalOf, Nat.add_assoc]

/-- Reports that are absorbed one after the other are summed up. -/
theorem sumsUp_foldl_absorb (parts : List AnalysisReport) :
    SumsUp { parts.foldl absorb {} with projects := parts.length } parts := by
  rw [foldl_absorb]
  exact ⟨rfl, Nat.zero_add _, Nat.zero_add _, Nat.zero_add _, Nat.zero_add _, List.nil_append _⟩

end AnalysisReport

namespace Sweep

variable {w : Workspace} {root : String}

/-- The projects of a solution that are not left out and whose passes succeed, each with the report of
its pass. -/
def results (w : Workspace) (root : String) (s : Sweep) : List ProjectEntry → List (Project × AnalysisReport)
  | [] => []
  | entry :: rest =>
    (if s.analyzer.config.leavesOut root entry then []
      else (s.analyzer.pass w s.call entry.manifestPath).result.toOption.toList) ++
        results w root (s.visit w root entry) rest

/-- A sweep that is not stopped has the projects of the passes that succeeded, and has absorbed their
reports. -/
theorem foldl_results {s : Sweep} (entries : List ProjectEntry)
    (hgoes : (entries.foldl (visit w root) s).stopped = false) :
    let results := s.results w root entries
    (entries.foldl (visit w root) s).projects = s.projects ++ results.map (·.1) ∧
      (entries.foldl (visit w root) s).report = (results.map (·.2)).foldl .absorb s.report := by
  induction entries generalizing s with
  | nil => exact ⟨(List.append_nil _).symm, rfl⟩
  | cons entry entries ih =>
    obtain ⟨hprojects, hreport⟩ := ih hgoes
    have hnext : (s.visit w root entry).stopped = false := not_stopped_of_foldl hgoes
    rw [List.foldl_cons, results, hprojects, hreport]
    have hend := s.visited w root entry
    generalize s.visit w root entry = s' at hend hnext ⊢
    cases hend with
    | givenUp => cases hnext
    | leftOut _ _ hout => simp [hout]
    | added _ _ hin hok => simp [hin, hok, Except.toOption]
    | failed _ _ hin herror => simp [hin, herror, Except.toOption]

end Sweep

namespace Analyzer

variable {a : Analyzer} {w : Workspace} {call : Call}

theorem sumsUp_analyzeSolution {path : String} {solution : Solution}
    (h : (a.analyzeSolution w call path).result = .ok solution) :
    ∃ layout, Layout.discover w.disk path = .ok layout ∧
      let results := Sweep.results w layout.root { analyzer := a, call } layout.projects
      solution.projects = results.map (·.1) ∧
        (a.analyzeSolution w call path).analyzer.lastReport.SumsUp (results.map (·.2)) := by
  obtain ⟨layout, hlayout, hgoes, rfl, hafter⟩ := analyzeSolution_ok h
  obtain ⟨hprojects, hreport⟩ := Sweep.foldl_results (s := { analyzer := a, call }) layout.projects hgoes
  rw [List.nil_append] at hprojects
  refine ⟨layout, hlayout, ?_, ?_⟩
  · rw [Sweep.projects_solution, hprojects]
  · have hlength := congrArg List.length hprojects
    rw [hafter, hlength, hreport, List.length_map]
    have hsums := AnalysisReport.sumsUp_foldl_absorb
      ((Sweep.results w layout.root { analyzer := a, call } layout.projects).map (·.2))
    rwa [List.length_map] at hsums

/-- The report of a call for a project that succeeds counts every document that is listed for the project
once, and tells the error of each that failed. That of a call for a solution counts the projects of the
solution, and sums up the reports of their passes. -/
theorem reports_account_for_documents (a : Analyzer) (w : Workspace) (call : Call) :
    (∀ manifest project, (a.analyzeProject w call manifest).result = .ok project →
      ∃ full source, w.disk.canonical manifest = .ok full ∧
        w.provider.loadProject w.disk full = .ok source ∧
        (a.analyzeProject w call manifest).analyzer.lastReport.Accounts
          (source.documents.map Path.components).dedup.length) ∧
      ∀ path solution, (a.analyzeSolution w call path).result = .ok solution →
        ∃ layout, Layout.discover w.disk path = .ok layout ∧
          let results := Sweep.results w layout.root { analyzer := a, call } layout.projects
          solution.projects = results.map (·.1) ∧
            (a.analyzeSolution w call path).analyzer.lastReport.SumsUp (results.map (·.2)) :=
  ⟨fun _ _ => accounts_analyzeProject, fun _ _ => sumsUp_analyzeSolution⟩

namespace Counted

/-- The projects of a solution. -/
def names : List String :=
  ["Kept", "Broken", "Made"]

/-- Every project lists one document in two spellings. That of the second one cannot be parsed, and that of the
third one was written by a tool. -/
def workspace : Workspace where
  provider := { Provider.workspace with
    loadProject := fun _ manifest =>
      let file := Path.fileStem manifest ++ ".cs"
      .ok ⟨Path.fileStem manifest, manifest, "", ["/p"], ["/p/" ++ file, "/p//" ++ file], []⟩
    parseDocument := fun path _ =>
      ⟨if path = "/p//Broken.cs" then .error (.provider "no text") else .ok { autoGenerated := true }, false⟩ }
  disk := {
    folders := [(["p"], 1)]
    files := (["p", "S.slnx"], ⟨(String.join (names.map fun name =>
          "<Project Path=\"" ++ name ++ ".csproj\"/>")).toUTF8, 1⟩) ::
        names.flatMap fun name => [(["p", name ++ ".csproj"], ⟨.empty, 1⟩), (["p", name ++ ".cs"], ⟨.empty, 1⟩)] }

/-- The document of the first project is remembered. -/
def analyzer : Analyzer where
  config := {}
  exclude := {}
  documents := [("/p/Kept.csproj", [("/p/Kept.cs", ⟨"/p/Kept.cs", 1, "Kept.cs", [], [], 0, 0, 0, false⟩)])]

def entries : List ProjectEntry :=
  names.map fun name => ⟨name, "/p/" ++ name ++ ".csproj"⟩

/-- The reports of the projects. -/
def reports : List AnalysisReport :=
  [{ projects := 1, reused := 1 },
    { projects := 1, failed := 1, errors := ["/p//Broken.cs: Source provider error: no text"] },
    { projects := 1, skipped := 1 }]

end Counted

/-- Each project has one document, of which each time something else becomes. -/
theorem reports_account_for_documents_each_way :
    let o := Counted.analyzer.analyzeProject Counted.workspace {} "/p/Broken.csproj"
    let o' := Counted.analyzer.analyzeSolution Counted.workspace {} "/p/S.slnx"
    ((∃ project, o.result = .ok project) ∧ o.analyzer.lastReport.Accounts 1) ∧
      (∃ solution, o'.result = .ok solution ∧ solution.projects.length = 3) ∧
        o'.analyzer.lastReport.SumsUp Counted.reports := by
  intro o o'
  obtain ⟨hproject, hsolution⟩ := reports_account_for_documents Counted.analyzer Counted.workspace {}
  obtain ⟨project, hok, -⟩ : ∃ project, o.result = .ok project ∧ true = true :=
    Except.exists_ok_of_any (by decide +kernel)
  obtain ⟨solution, hok', -⟩ : ∃ solution, o'.result = .ok solution ∧ true = true :=
    Except.exists_ok_of_any (by decide +kernel)
  obtain ⟨full, source, hfull, hsource, haccounts⟩ := hproject "/p/Broken.csproj" project hok
  obtain ⟨layout, hlayout, hprojects, hsums⟩ := hsolution "/p/S.slnx" solution hok'
  have hhere : Counted.workspace.disk.canonical "/p/Broken.csproj" = .ok "/p/Broken.csproj" := by decide +kernel
  have hone : (["/p/Broken.cs", "/p//Broken.cs"].map Path.components).dedup.length = 1 := by decide +kernel
  have hfound : Layout.discover Counted.workspace.disk "/p/S.slnx" = .ok ⟨"S", "/p/S.slnx", "/p", Counted.entries⟩ := by
    decide +kernel
  have hreports : (Sweep.results Counted.workspace "/p" { analyzer := Counted.analyzer, call := {} }
      Counted.entries).map (·.2) = Counted.reports := by
    decide +kernel
  obtain rfl := Except.ok.inj (hfull.symm.trans hhere)
  obtain rfl := (Except.ok.inj hsource).symm
  obtain rfl := Except.ok.inj (hlayout.symm.trans hfound)
  refine ⟨⟨⟨project, hok⟩, hone ▸ haccounts⟩, ⟨solution, hok', ?_⟩, hreports ▸ hsums⟩
  have hlength := congrArg List.length hreports
  rw [List.length_map] at hlength
  rw [hprojects, List.length_map, hlength]
  rfl

end Analyzer

end SolutionAtlas
