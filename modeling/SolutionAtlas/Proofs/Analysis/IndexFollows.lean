-- SUMMARY: The index of an analyzer follows the model of its project.
import Mathlib
import SolutionAtlas.Proofs.Analysis.IndexMatches
import SolutionAtlas.Proofs.Analysis.Session

/-!
# The index follows the project

An analyzer that serves one project keeps its index in step with the documents it remembers of it:
after every pass, whether it succeeds, fails or is given up, what is in the index fits them. So after
a call that succeeds the index is that of the project, whatever calls came before.
-/

namespace SolutionAtlas

/-- The call goes over a document of the project, whose earlier result it takes over or which it
analyzes. -/
def Analyzer.GoesOver (a : Analyzer) (w : Workspace) (project : String) (document : AnalyzedDocument) :
    Prop :=
  ∃ directory source, Path.parent? project = some directory ∧
    w.provider.loadProject w.disk project = .ok source ∧
    ∃ j ∈ (a.planFor w.disk project (source.rootDirs.head?.getD directory) source).stamped.jobs,
      w.resultFor? a.options (a.documentsOf project) j = some document

/-- The index is that of a project put together from documents. -/
structure SymbolIndex.Follows (x : SymbolIndex) (project : Project) (documents : List AnalyzedDocument) :
    Prop where
  keys : ∀ key, x.contains key = true ↔ DeclaresKey project.declared key
  types : ∀ p ∈ project.declared,
    x.get? p.key = some (.ofType project.projectFilePath p.space p.type)
  parts : ∀ p ∈ project.declared, p.type.Unites (partsOf p.key (declaredBy documents))
  located : ∀ key e, x.get? key = some e → ∀ l ∈ e.symbol.locations,
    ∃ document ∈ documents, document.path = l.filePath

namespace Analyzer

/-- The index fits what the analyzer remembers of a project. -/
structure InStep (project : String) (a : Analyzer) : Prop where
  remembers : RemembersSoundly (a.documentsOf project)
  index : IndexMatches project (a.documentsOf project) a.index

variable {a : Analyzer} {w : Workspace} {project root manifest : String} {source : ProjectSource}

theorem InStep.of_new (hdocuments : a.documents = []) (hindex : a.index = .empty) :
    a.InStep project := by
  have hempty : a.documentsOf project = [] := by
    rw [documentsOf, hdocuments]
    rfl
  refine ⟨?_, ?_⟩
  · rw [hempty]
    exact .nil
  · rw [hindex]
    exact .empty project _

/-- A lawful provider lists every document once and in plain spelling. -/
theorem plain_planFor (hw : w.provider.Lawful) (hd : w.disk.FilesNamed)
    (hproject : w.disk.canonical manifest = .ok project)
    (hsource : w.provider.loadProject w.disk project = .ok source) :
    (a.planFor w.disk project root source).stamped.Plain where
  nodup := Stamped.jobs_nodup
  tidy := by
    intro j hj
    obtain rfl := Disk.eq_path_of_canonical hproject
    exact hw.plain _ _ _ hd (Place.named_ofPath _) hsource _ (Stamped.mem_jobs hj).1

/-- After a pass that puts its project together, the index is that of the project. -/
theorem InStep.assemble (h : a.InStep project) (hw : w.ParsesSoundly a.options)
    (hs : (a.planFor w.disk project root source).stamped.Plain) {order : List DocumentJob}
    (horder : order ⊆ (a.planFor w.disk project root source).changed) (m : Manifest) :
    let plan := a.planFor w.disk project root source
    let kept := w.kept a.options (a.documentsOf project) plan.stamped.jobs
    let built := a.assemble w.disk source project root m kept
      (w.indexJobs a.options project (dropFiles a.index plan.stale) order)
    built.2.InStep project ∧ built.2.index.Follows built.1 kept.values := by
  intro plan kept built
  have hkept : RemembersSoundly kept := h.remembers.kept hw hs
  have hindex := h.index.indexJobs h.remembers hw hs horder
  obtain ⟨ps, hmerges, hperm⟩ := merges_mergedOf kept
  have hafter : IndexMatches project kept built.2.index := by
    rw [index_assemble]
    exact hindex.putEach hkept hmerges hperm
  refine ⟨⟨?_, ?_⟩, fun key => ?_, fun p hp => ?_, fun p hp => ?_, fun key e he l hl => ?_⟩
  · rw [documentsOf_assemble, if_pos rfl]
    exact hkept
  · rw [documentsOf_assemble, if_pos rfl]
    exact hafter
  · rw [index_assemble]
    exact hindex.contains_putEach hkept hmerges hperm key
  · rw [index_assemble]
    exact hindex.get?_putEach hkept hmerges hperm hp
  · exact (unites_of_mergedParts? ((hmerges.mem_types p).mp hp)).perm (hperm.filter _)
  · obtain ⟨document, hdocument, -⟩ := (hafter.fits key e he).declares l hl
    exact ⟨document, hkept.ascending.mem_values_iff.mpr ⟨_, hdocument⟩, hkept.path _ _ hdocument⟩

/-- A pass keeps the index in step, whatever becomes of it. -/
theorem InStep.pass (h : a.InStep project) (hw : w.provider.Lawful) (hd : w.disk.FilesNamed)
    (call : Call) (hmanifest : (Place.ofPath manifest).path = project) :
    (a.pass w call manifest).analyzer.InStep project := by
  rcases a.pass_cases w call manifest with
    ⟨e, hpass⟩ | ⟨path, directory, source, -, hpath, hsource, -, hpass⟩
  · rw [hpass]
    exact h
  · rw [hpass]
    obtain rfl : path = project := (Disk.eq_path_of_canonical hpath).trans hmanifest
    have hs : (a.planFor w.disk path (source.rootDirs.head?.getD directory) source).stamped.Plain :=
      plain_planFor hw hd hpath hsource
    have hparses := hw.parsesSoundly a.options
    rcases a.analyzeSource_cases w call path directory source with
      ⟨done, hdone, -, hafter, -⟩ | ⟨order, report, horder, -, hafter⟩
    · rw [hafter]
      exact ⟨h.remembers, h.index.givenUp h.remembers hparses hs hdone⟩
    · rw [hafter]
      exact (h.assemble hparses hs horder.subset _).1

/-- The documents that a project has after a pass are those that the pass goes over. -/
theorem mem_kept_iff {directory : String} (hdirectory : Path.parent? project = some directory)
    (hsource : w.provider.loadProject w.disk project = .ok source)
    (hs : (a.planFor w.disk project (source.rootDirs.head?.getD directory) source).stamped.Plain)
    (document : AnalyzedDocument) :
    document ∈ (w.kept a.options (a.documentsOf project)
        (a.planFor w.disk project (source.rootDirs.head?.getD directory) source).stamped.jobs).values ↔
      a.GoesOver w project document := by
  rw [(Workspace.kept_ascending _).mem_values_iff]
  constructor
  · rintro ⟨key, hdocument⟩
    obtain ⟨j, hj, -, hresult⟩ := hs.get?_kept.mp hdocument
    exact ⟨directory, source, hdirectory, hsource, j, hj, hresult⟩
  · rintro ⟨directory', source', hdirectory', hsource', j, hj, hresult⟩
    obtain rfl : directory = directory' := Option.some.inj (hdirectory.symm.trans hdirectory')
    obtain rfl : source = source' := Except.ok.inj (hsource.symm.trans hsource')
    exact ⟨j.path, hs.get?_kept.mpr ⟨j, hj, rfl, hresult⟩⟩

/-- A call that succeeds leaves the index of its project. -/
theorem InStep.analyzeProject_ok (hw : w.provider.Lawful) (hd : w.disk.FilesNamed) {call : Call}
    (h : a.InStep (Place.ofPath manifest).path) {found : Project}
    (hok : (a.analyzeProject w call manifest).result = .ok found) :
    ∃ documents, (a.analyzeProject w call manifest).analyzer.index.Follows found documents ∧
      ∀ document, document ∈ documents ↔ a.GoesOver w found.projectFilePath document := by
  obtain ⟨report, hpass⟩ := Analyzer.analyzeProject_ok.mp hok
  obtain ⟨_, hafter⟩ := a.analyzer_analyzeProject w call manifest
  obtain ⟨path, directory, source, order, -, hpath, hsource, hdirectory, horder, hfound, hanalyzer⟩ :=
    pass_succeeds hpass
  obtain rfl := Disk.eq_path_of_canonical hpath
  have hs : (a.planFor w.disk _ (source.rootDirs.head?.getD directory) source).stamped.Plain :=
    plain_planFor hw hd hpath hsource
  obtain ⟨-, hfollows⟩ := h.assemble (hw.parsesSoundly _) hs horder.subset
    (Manifest.read source.manifestText directory)
  rw [hafter, hanalyzer]
  dsimp only at hfound
  rw [hfound, projectFilePath_assemble]
  exact ⟨_, hfollows, mem_kept_iff hdirectory hsource hs⟩

end Analyzer

/-! ## Sessions -/

/-- All calls are for one project, by lawful providers. -/
def Event.ForProject (manifest : String) : Event → Prop :=
  Event.ProjectsOnly fun manner path => manner.provider.Lawful ∧ path = manifest

/-- The analyzer of a session keeps its index in step with a project. -/
structure Session.InStep (manifest : String) (s : Session) : Prop where
  filesNamed : s.disk.FilesNamed
  analyzer : s.analyzer.InStep (Place.ofPath manifest).path

namespace Session.InStep

variable {s : Session} {manifest : String}

theorem step (h : s.InStep manifest) {e : Event} (he : e.ForProject manifest) :
    (s.step e).InStep manifest := by
  cases e with
  | edit change => exact { h with filesNamed := h.filesNamed.edit change }
  | analyzeProject m path =>
    obtain ⟨hprovider, rfl⟩ := he
    obtain ⟨report, hafter⟩ := s.analyzer.analyzer_analyzeProject (m.workspace s.disk) m.call path
    have hpass := h.analyzer.pass (w := m.workspace s.disk) hprovider h.filesNamed m.call rfl
    refine ⟨h.filesNamed, ?_⟩
    simp only [Session.step, hafter]
    exact ⟨hpass.remembers, hpass.index⟩
  | analyzeSolution m path => exact he.elim

theorem run {a : Analyzer} (hdocuments : a.documents = []) (hindex : a.index = .empty)
    {events : List Event} (hevents : ∀ e ∈ events, e.ForProject manifest) :
    ((Session.start a).run events).InStep manifest :=
  run_induction (fun _ _ he hs => hs.step he) ⟨Disk.filesNamed_empty, .of_new hdocuments hindex⟩ hevents

end Session.InStep

/-- After any changes of the files and calls for one project that have succeeded, failed or been given
up, a call that succeeds leaves the index of the project it gives: with its keys and no others, with
the entry of each merged type, and with locations only in documents that the call goes over. -/
theorem Session.index_follows_project {config : AnalyzerConfig} {a : Analyzer}
    (ha : Analyzer.ofConfig config = .ok a) {manifest : String} {events : List Event}
    (hevents : ∀ e ∈ events, e.ForProject manifest) {s : Session} (hs : (Session.start a).run events = s)
    {m : Manner} (hm : m.provider.Lawful) {project : Project}
    (hok : (s.analyzer.analyzeProject (m.workspace s.disk) m.call manifest).result = .ok project) :
    ∃ documents,
      (s.analyzer.analyzeProject (m.workspace s.disk) m.call manifest).analyzer.index.Follows project
        documents ∧
      ∀ document, document ∈ documents ↔
        s.analyzer.GoesOver (m.workspace s.disk) project.projectFilePath document := by
  obtain ⟨-, -, hdocuments, hindex⟩ := Analyzer.ofConfig_ok ha
  have h : s.InStep manifest := hs ▸ InStep.run hdocuments hindex hevents
  exact h.analyzer.analyzeProject_ok (w := m.workspace s.disk) hm h.filesNamed hok

theorem Session.index_follows_project_example :
    ∃ project documents,
      (((Session.start Example.new).run Example.events).analyzer.analyzeProject
        (Manner.workspace {} Example.after) {} "/p/A.csproj").result = .ok project ∧
      (((Session.start Example.new).run Example.events).analyzer.analyzeProject
        (Manner.workspace {} Example.after) {} "/p/A.csproj").analyzer.index.Follows project documents := by
  have hnew : Analyzer.ofConfig {} = .ok Example.new := rfl
  have hevents : ∀ e ∈ Example.events, e.ForProject "/p/A.csproj" := by
    simp [Example.events, Event.ForProject, Event.ProjectsOnly, Provider.workspace_lawful]
  obtain ⟨project, hok⟩ := Example.analyzeProject_ok
  have hdisk := Example.disk_run
  obtain ⟨s, hs⟩ : ∃ s, (Session.start Example.new).run Example.events = s := ⟨_, rfl⟩
  rw [hs] at hok hdisk ⊢
  generalize Example.after = after at hdisk hok
  subst hdisk
  obtain ⟨documents, hfollows, -⟩ :=
    index_follows_project hnew hevents hs Provider.workspace_lawful hok
  exact ⟨project, documents, hok, hfollows⟩

end SolutionAtlas
