-- SUMMARY: Incremental analysis gives what analysis from scratch gives.
import Mathlib
import SolutionAtlas.Proofs.Analysis.Document
import SolutionAtlas.Proofs.Analysis.Session

/-!
# Incremental analysis and analysis from scratch

What an analyzer remembers of a document is what it would find out again, as long as the time of
change of a document tells its contents. `Session.Remembering` is the invariant that carries this
through all calls, whether they succeed, fail or are given up: every remembered result is that of
analyzing the document as some earlier call has found it.
-/

namespace SolutionAtlas

/-! ## Documents that calls have found -/

namespace Look

variable (l : Look)

def workspace : Workspace :=
  { provider := .workspace, disk := l.disk }

/-- The call finds the document among those of its project. -/
def Lists (path : String) : Prop :=
  ∃ project source, l.disk.canonical l.manifest = .ok project ∧
    Provider.loadFromDisk l.disk project = .ok source ∧ path ∈ source.documents

/-- The call may find a document of its project in this state. -/
def Finds (exclude : ExcludeFilter) (project : String) (j : DocumentJob) : Prop :=
  ∃ directory source, l.disk.canonical l.manifest = .ok project ∧
    Provider.loadFromDisk l.disk project = .ok source ∧ Path.parent? project = some directory ∧
    j ∈ (Stamped.ofPaths l.disk exclude (source.rootDirs.head?.getD directory) source.documents).jobs

end Look

/-- What calls list are files. -/
theorem Look.Lists.file {l : Look} (hd : l.disk.FilesNamed) {path : String} (h : l.Lists path) :
    ∃ e ∈ l.disk.files, path = e.1.path := by
  obtain ⟨project, source, hproject, hsource, hpath⟩ := h
  obtain rfl := Disk.eq_path_of_canonical hproject
  exact Provider.mem_files_of_loadFromDisk hd (Place.named_ofPath _) hsource hpath

/-- A document found by two calls at the same time of change has the same bytes. -/
def TimesTell (looks : List Look) : Prop :=
  ∀ l ∈ looks, ∀ l' ∈ looks, ∀ path t, l.Lists path → l'.Lists path →
    l.disk.modifiedMs path = .ok t → l'.disk.modifiedMs path = .ok t →
    l.disk.readBytes path = l'.disk.readBytes path

/-- Files that are only added do not count against it. -/
theorem TimesTell.of_added {before after : Disk} (hnamed : before.FilesNamed)
    (h : ∀ e ∈ before.files, before.readBytes e.1.path = after.readBytes e.1.path) {looks : List Look}
    (hlooks : ∀ l ∈ looks, l.disk = before ∨ l.disk = after) : TimesTell looks := by
  have hsame (l : Look) (hl : l ∈ looks) (path : String) (hpath : ∃ e ∈ before.files, path = e.1.path) :
      l.disk.readBytes path = before.readBytes path := by
    obtain ⟨e, he, rfl⟩ := hpath
    rcases hlooks l hl with hdisk | hdisk
    · rw [hdisk]
    · rw [hdisk, h e he]
  intro l hl l' hl' path t hpath hpath' _ _
  rcases hlooks l hl with hbefore | hafter
  · have hfile := hbefore ▸ hpath.file (hbefore ▸ hnamed)
    rw [hsame l hl path hfile, hsame l' hl' path hfile]
  · rcases hlooks l' hl' with hbefore' | hafter'
    · have hfile := hbefore' ▸ hpath'.file (hbefore' ▸ hnamed)
      rw [hsame l hl path hfile, hsame l' hl' path hfile]
    · rw [hafter, hafter']

namespace Look.Finds

variable {l l' : Look} {exclude : ExcludeFilter} {project : String} {j j' : DocumentJob}

theorem lists (h : l.Finds exclude project j) : l.Lists j.path := by
  obtain ⟨directory, source, hproject, hsource, -, hj⟩ := h
  exact ⟨project, source, hproject, hsource, (Stamped.mem_jobs hj).1⟩

theorem modifiedMs (h : l.Finds exclude project j) : l.disk.modifiedMs j.path = .ok j.modifiedMs := by
  obtain ⟨directory, source, -, -, -, hj⟩ := h
  exact (Stamped.mem_jobs hj).2.2

/-- The path of a document is in plain spelling. -/
theorem tidy_path (hd : l.disk.FilesNamed) (h : l.Finds exclude project j) :
    Path.tidy j.path = j.path := by
  obtain ⟨directory, source, hproject, hsource, -, hj⟩ := h
  obtain rfl := Disk.eq_path_of_canonical hproject
  exact Provider.tidy_of_loadFromDisk hd (Place.named_ofPath _) hsource (Stamped.mem_jobs hj).1

theorem relativePath (h : l.Finds exclude project j) :
    ∃ root, Path.parent? project = some root ∧ j.relativePath = pathBelow root j.path := by
  obtain ⟨directory, source, -, hsource, -, hj⟩ := h
  obtain ⟨root, hroot, hdirs, -⟩ := Provider.loadFromDisk_ok hsource
  have hrelative := (Stamped.mem_jobs hj).2.1
  rw [hdirs] at hrelative
  exact ⟨root, hroot, hrelative⟩

/-- Two calls find a document in the same state when its path and its time of change are the same. -/
theorem eq (h : l.Finds exclude project j) (h' : l'.Finds exclude project j')
    (hpath : j.path = j'.path) (htime : j.modifiedMs = j'.modifiedMs) : j = j' := by
  obtain ⟨root, hroot, hrelative⟩ := h.relativePath
  obtain ⟨root', hroot', hrelative'⟩ := h'.relativePath
  obtain rfl : root = root' := Option.some.inj (hroot.symm.trans hroot')
  obtain ⟨path, relativePath, modifiedMs⟩ := j
  obtain ⟨path', relativePath', modifiedMs'⟩ := j'
  dsimp only at hpath htime hrelative hrelative'
  subst hpath htime hrelative hrelative'
  rfl

end Look.Finds

/-- A document that an earlier call has found in the same state has the same bytes now. -/
theorem TimesTell.readBytes_eq {looks : List Look} {l l' : Look} {exclude : ExcludeFilter} {project : String}
    {j : DocumentJob} (h : TimesTell (looks ++ [l'])) (hl : l ∈ looks) (hfound : l.Finds exclude project j)
    (hj : l'.Finds exclude project j) : l.disk.readBytes j.path = l'.disk.readBytes j.path :=
  h l (List.mem_append_left _ hl) l' (by simp) j.path j.modifiedMs hfound.lists hj.lists hfound.modifiedMs
    hj.modifiedMs

/-! ## What an analyzer remembers -/

theorem Analyzer.documentsOf_new {a : Analyzer} (h : a.documents = []) (project : String) :
    a.documentsOf project = [] := by
  rw [documentsOf, h]
  rfl

/-- All that the analyzer of a session remembers, it has found out by itself. -/
structure Session.Remembering (a : Analyzer) (s : Session) : Prop where
  filesNamed : s.disk.FilesNamed
  looksNamed : ∀ l ∈ s.looks, l.disk.FilesNamed
  config : s.analyzer.config = a.config
  exclude : s.analyzer.exclude = a.exclude
  remembered : ∀ project key document, (s.analyzer.documentsOf project).get? key = some document →
    ∃ l ∈ s.looks, ∃ j, l.Finds a.exclude project j ∧ j.path = key ∧
      (l.workspace.analyzeDocument a.options j).outcome = .ok document

/-- The calls for projects are made by the provider that knows the disk. -/
def Event.ByWorkspace : Event → Prop :=
  Event.ProjectsOnly fun manner _ => manner.provider = .workspace

namespace Session.Remembering

variable {a : Analyzer} {s : Session} {m : Manner} {manifest project : String}

/-- A new analyzer remembers nothing that it has not found. -/
theorem of_new (h : a.documents = []) {d : Disk} (hd : d.FilesNamed) {looks : List Look}
    (hlooks : ∀ l ∈ looks, l.disk.FilesNamed) : Remembering a ⟨d, a, looks⟩ where
  filesNamed := hd
  looksNamed := hlooks
  config := rfl
  exclude := rfl
  remembered := by
    intro project key document hdocument
    rw [Analyzer.documentsOf_new h] at hdocument
    cases hdocument

theorem start (h : a.documents = []) : (Session.start a).Remembering a :=
  of_new h Disk.filesNamed_empty fun _ hl => nomatch hl

theorem options_eq (h : s.Remembering a) : s.analyzer.options = a.options := by
  rw [Analyzer.options, h.config]
  rfl

/-- A call that gets to the documents of its project finds those that its plan goes over. -/
theorem finds (h : s.Remembering a) {directory : String} {source : ProjectSource}
    (hproject : s.disk.canonical manifest = .ok project)
    (hsource : Provider.loadFromDisk s.disk project = .ok source)
    (hdirectory : Path.parent? project = some directory) {j : DocumentJob}
    (hj : j ∈ (s.analyzer.planFor s.disk project (source.rootDirs.head?.getD directory)
      source).stamped.jobs) :
    Look.Finds ⟨s.disk, manifest⟩ a.exclude project j := by
  rw [Analyzer.stamped_planFor, h.exclude] at hj
  exact ⟨directory, source, hproject, hsource, hdirectory, hj⟩

/-- A result that is taken over is found at the path it was found at before. -/
theorem of_reusable (h : s.Remembering a) {j : DocumentJob}
    (hj : Look.Finds ⟨s.disk, manifest⟩ a.exclude project j) {document : AnalyzedDocument}
    (hreused : reusable? (s.analyzer.documentsOf project) j = some document) :
    ∃ l ∈ s.looks, l.Finds a.exclude project j ∧
      (l.workspace.analyzeDocument a.options j).outcome = .ok document := by
  obtain ⟨old, hold, htime, rfl⟩ := reusable?_eq_some.mp hreused
  obtain ⟨l, hl, i, hi, hkey, houtcome⟩ := h.remembered project _ old hold
  have hpath : i.path = j.path := hkey.trans (hj.tidy_path h.filesNamed)
  -- Path and time of change are those of the earlier call, so the job is the very same.
  obtain rfl : i = j := hi.eq hj hpath ((Workspace.modifiedMs_of_outcome houtcome).symm.trans htime)
  have hsame : { old with path := i.path } = old := by rw [← Workspace.path_of_outcome houtcome]
  exact ⟨l, hl, hi, hsame ▸ houtcome⟩

/-- What a call leaves remembered it has found itself, or an earlier call has. -/
theorem remembered_analyzeProject (h : s.Remembering a) (hm : m.provider = .workspace) {key : String}
    {document : AnalyzedDocument}
    (hdocument : ((s.step (.analyzeProject m manifest)).analyzer.documentsOf project).get? key =
      some document) :
    ∃ l ∈ (s.step (.analyzeProject m manifest)).looks, ∃ j, l.Finds a.exclude project j ∧ j.path = key ∧
      (l.workspace.analyzeDocument a.options j).outcome = .ok document := by
  have hlooks : s.looks ⊆ (s.step (.analyzeProject m manifest)).looks := by
    intro l hl
    simp only [step]
    split
    · exact hl
    · exact List.mem_append_left _ hl
  obtain ⟨report, hanalyzer⟩ :=
    s.analyzer.analyzer_analyzeProject (m.workspace s.disk) m.call manifest
  simp only [step, hanalyzer] at hdocument
  rcases Analyzer.get?_documentsOf_pass hdocument with
    hbefore | ⟨directory, source, hcall, hproject, hsource, hdirectory, j, hj, hkey, hresult⟩
  · obtain ⟨l, hl, hrest⟩ := h.remembered project key document hbefore
    exact ⟨l, hlooks hl, hrest⟩
  · have hsource' : Provider.loadFromDisk s.disk project = .ok source := by
      rw [Manner.workspace, hm] at hsource
      exact hsource
    have hfinds := h.finds hproject hsource' hdirectory hj
    rw [hfinds.tidy_path h.filesNamed] at hkey
    rcases Workspace.resultFor?_eq_some.mp hresult with hreused | ⟨-, houtcome⟩
    · obtain ⟨l, hl, hj, houtcome⟩ := h.of_reusable hfinds hreused
      exact ⟨l, hlooks hl, j, hj, hkey, houtcome⟩
    · have hsame : (m.workspace s.disk).analyzeDocument a.options j =
          (Look.workspace ⟨s.disk, manifest⟩).analyzeDocument a.options j :=
        Workspace.analyzeDocument_congr hm rfl
      rw [h.options_eq, hsame] at houtcome
      refine ⟨⟨s.disk, manifest⟩, ?_, j, hfinds, hkey, houtcome⟩
      simp [step, hcall]

theorem analyzeProject (h : s.Remembering a) (hm : m.provider = .workspace) (manifest : String) :
    (s.step (.analyzeProject m manifest)).Remembering a := by
  obtain ⟨report, hanalyzer⟩ :=
    s.analyzer.analyzer_analyzeProject (m.workspace s.disk) m.call manifest
  obtain ⟨hconfig, hexclude⟩ := s.analyzer.config_pass (m.workspace s.disk) m.call manifest
  refine ⟨h.filesNamed, ?_, ?_, ?_, fun _ _ _ => h.remembered_analyzeProject hm⟩
  · intro l hl
    simp only [step] at hl
    split at hl
    · exact h.looksNamed l hl
    · rcases List.mem_append.mp hl with hl | hl
      · exact h.looksNamed l hl
      · rw [List.mem_singleton.mp hl]
        exact h.filesNamed
  · simp only [step, hanalyzer, hconfig, h.config]
  · simp only [step, hanalyzer, hexclude, h.exclude]

theorem step (h : s.Remembering a) {e : Event} (he : e.ByWorkspace) : (s.step e).Remembering a := by
  cases e with
  | edit change => exact { h with filesNamed := h.filesNamed.edit change }
  | analyzeProject m manifest => exact h.analyzeProject he manifest
  | analyzeSolution m path => exact he.elim

theorem run (ha : a.documents = []) {events : List Event} (hevents : ∀ e ∈ events, e.ByWorkspace) :
    ((Session.start a).run events).Remembering a :=
  run_induction (fun _ _ he hs => hs.step he) (.start ha) hevents

/-- What the analyzer takes over or finds out about a document is what a new one finds out. -/
theorem resultFor_eq (h : s.Remembering a) (htimes : TimesTell (s.looks ++ [⟨s.disk, manifest⟩]))
    (hm : m.provider = .workspace) {j : DocumentJob}
    (hj : Look.Finds ⟨s.disk, manifest⟩ a.exclude project j) :
    (m.workspace s.disk).resultFor? a.options (s.analyzer.documentsOf project) j =
      (Look.workspace ⟨s.disk, manifest⟩).resultFor? a.options [] j := by
  have hsame : (m.workspace s.disk).analyzeDocument a.options j =
      (Look.workspace ⟨s.disk, manifest⟩).analyzeDocument a.options j :=
    Workspace.analyzeDocument_congr hm rfl
  rw [Workspace.resultFor?, Workspace.resultFor?, hsame]
  cases hreused : reusable? (s.analyzer.documentsOf project) j with
  | none => rfl
  | some document =>
    obtain ⟨l, hl, hfound, houtcome⟩ := h.of_reusable hj hreused
    have hbytes : l.disk.readBytes j.path = s.disk.readBytes j.path := htimes.readBytes_eq hl hfound hj
    have hagain : (Look.workspace ⟨s.disk, manifest⟩).analyzeDocument a.options j =
        l.workspace.analyzeDocument a.options j :=
      Workspace.analyzeDocument_congr rfl hbytes.symm
    rw [hagain, houtcome]
    rfl

end Session.Remembering

/-! ## The two analyses -/

namespace Analyzer

/-- How a project is put together from its documents does not depend on what else the analyzer knows. -/
theorem project_assemble {a b : Analyzer}
    (hdepth : a.config.editorConfigSearchDepth = b.config.editorConfigSearchDepth) (d : Disk)
    (source : ProjectSource) (project root : String) (manifest : Manifest)
    (kept : Table AnalyzedDocument) (x y : SymbolIndex) :
    (a.assemble d source project root manifest kept x).1 =
      (b.assemble d source project root manifest kept y).1 := by
  simp only [assemble, hdepth]

/-- Two analyzers that keep the same documents of a project give the same project. -/
theorem analyzeProject_eq {a b : Analyzer} {w w' : Workspace} (hprovider : w.provider = .workspace)
    (hprovider' : w'.provider = .workspace) (hdisk : w'.disk = w.disk)
    (hgoes : ∀ moment, w'.givesUp moment = false)
    (hdepth : a.config.editorConfigSearchDepth = b.config.editorConfigSearchDepth) {call : Call}
    {manifest : String} {found : Project}
    (hkept : ∀ project directory source, w.disk.canonical manifest = .ok project →
      Provider.loadFromDisk w.disk project = .ok source → Path.parent? project = some directory →
      let root := source.rootDirs.head?.getD directory
      w.kept a.options (a.documentsOf project) (a.planFor w.disk project root source).stamped.jobs =
        w'.kept b.options (b.documentsOf project) (b.planFor w.disk project root source).stamped.jobs)
    (hok : (a.analyzeProject w call manifest).result = .ok found) :
    (b.analyzeProject w' {} manifest).result = .ok found := by
  obtain ⟨report, hpass⟩ := analyzeProject_ok.mp hok
  obtain ⟨project, directory, source, _, -, hproject, hsource, hdirectory, -, hfound, -⟩ :=
    pass_succeeds hpass
  rw [hprovider, Provider.loadProject_workspace] at hsource
  have hcall : ({} : Call).cancelled = false := rfl
  obtain ⟨found', hok'⟩ := b.analyzeProject_succeeds hprovider' hgoes hcall (hdisk ▸ hproject) hdirectory
    (hdisk ▸ Provider.readText_of_loadBy hsource)
  obtain ⟨report', hpass'⟩ := analyzeProject_ok.mp hok'
  obtain ⟨project', directory', source', _, -, hproject', hsource', hdirectory', -, hfound', -⟩ :=
    pass_succeeds hpass'
  rw [hprovider', Provider.loadProject_workspace, hdisk] at hsource'
  rw [hdisk] at hproject'
  -- The disk leaves both calls no choice of what they work on.
  obtain rfl : project = project' := Except.ok.inj (hproject.symm.trans hproject')
  obtain rfl : source = source' := Except.ok.inj (hsource.symm.trans hsource')
  obtain rfl : directory = directory' := Option.some.inj (hdirectory.symm.trans hdirectory')
  have hsame : found' = found := by
    dsimp only at hfound hfound'
    rw [hfound, hfound', hdisk, ← hkept project directory source hproject hsource hdirectory]
    exact (project_assemble hdepth ..).symm
  exact analyzeProject_ok.mpr ⟨report', hsame ▸ hpass'⟩

end Analyzer

/-- The analyzer of a session keeps the documents that a new one finds. -/
theorem Session.Remembering.kept_eq {a new : Analyzer} {s : Session} (h : s.Remembering a)
    (hconfig : new.options = a.options) (hexclude : new.exclude = a.exclude) (hempty : new.documents = [])
    {m : Manner} (hm : m.provider = .workspace) {manifest : String}
    (htimes : TimesTell (s.looks ++ [⟨s.disk, manifest⟩])) (order : Schedule)
    {project directory : String} {source : ProjectSource}
    (hproject : s.disk.canonical manifest = .ok project)
    (hsource : Provider.loadFromDisk s.disk project = .ok source)
    (hdirectory : Path.parent? project = some directory) :
    let root := source.rootDirs.head?.getD directory
    (m.workspace s.disk).kept s.analyzer.options (s.analyzer.documentsOf project)
        (s.analyzer.planFor s.disk project root source).stamped.jobs =
      Workspace.kept { provider := .workspace, disk := s.disk, schedule := order } new.options
        (new.documentsOf project) (new.planFor s.disk project root source).stamped.jobs := by
  intro root
  have hstamped : (new.planFor s.disk project root source).stamped =
      (s.analyzer.planFor s.disk project root source).stamped := by
    rw [Analyzer.stamped_planFor, Analyzer.stamped_planFor, h.exclude, hexclude]
  rw [Analyzer.documentsOf_new hempty, hstamped, hconfig, h.options_eq]
  refine Workspace.kept_congr fun j hj => ?_
  exact h.resultFor_eq htimes hm (h.finds hproject hsource hdirectory hj)

/-- A new analyzer with the same settings finds the project that the analyzer of a session finds. -/
theorem Session.Remembering.result_eq {a new : Analyzer} {s : Session} (h : s.Remembering a)
    (hconfig : new.options = a.options) (hexclude : new.exclude = a.exclude) (hempty : new.documents = [])
    (hdepth : new.config.editorConfigSearchDepth = a.config.editorConfigSearchDepth) {m : Manner}
    (hm : m.provider = .workspace) {manifest : String} (htimes : TimesTell (s.looks ++ [⟨s.disk, manifest⟩]))
    (order : Schedule) {project : Project}
    (hok : (s.analyzer.analyzeProject (m.workspace s.disk) m.call manifest).result = .ok project) :
    (new.analyzeProject { provider := .workspace, disk := s.disk, schedule := order } {}
      manifest).result = .ok project := by
  have hdepth' : s.analyzer.config.editorConfigSearchDepth = new.config.editorConfigSearchDepth := by
    rw [h.config, hdepth]
  apply Analyzer.analyzeProject_eq (w := m.workspace s.disk) hm _ _ _ hdepth' _ hok
  · rfl
  · rfl
  · intro moment
    rfl
  · intro path directory source hpath hsource hdirectory
    exact h.kept_eq hconfig hexclude hempty hm htimes order hpath hsource hdirectory

/-- After any changes of the files, calls that have succeeded, failed or been given up, and in whatever
order documents were done, a call that succeeds gives the project that a new analyzer finds from
scratch, with as many documents at a time as one likes. -/
theorem Session.analyzeProject_eq_fromScratch {config : AnalyzerConfig} {concurrency : Nat}
    {a new : Analyzer} (ha : Analyzer.ofConfig config = .ok a)
    (hnew : Analyzer.ofConfig { config with maxConcurrency := concurrency } = .ok new)
    {events : List Event} (hevents : ∀ e ∈ events, e.ByWorkspace) {s : Session}
    (hs : (Session.start a).run events = s) {m : Manner} (hm : m.provider = .workspace)
    {manifest : String} (htimes : TimesTell (s.looks ++ [⟨s.disk, manifest⟩])) {project : Project}
    (hok : (s.analyzer.analyzeProject (m.workspace s.disk) m.call manifest).result = .ok project)
    (order : Schedule) :
    (new.analyzeProject { provider := .workspace, disk := s.disk, schedule := order } {}
      manifest).result = .ok project := by
  obtain ⟨hconfig, hexclude, hdocuments, -⟩ := Analyzer.ofConfig_ok ha
  obtain ⟨hconfigNew, hexcludeNew, hdocumentsNew, -⟩ := Analyzer.ofConfig_ok hnew
  have h := hs ▸ Remembering.run hdocuments hevents
  have hexcludes : new.exclude = a.exclude := Except.ok.inj (hexcludeNew.symm.trans hexclude)
  have hoptions : new.options = a.options := by rw [Analyzer.options, Analyzer.options, hconfig, hconfigNew]
  have hdepth : new.config.editorConfigSearchDepth = a.config.editorConfigSearchDepth := by
    rw [hconfig, hconfigNew]
  exact h.result_eq hoptions hexcludes hdocumentsNew hdepth hm htimes order hok

theorem Session.Example.byWorkspace : ∀ e ∈ events, e.ByWorkspace := by
  simp [events, Event.ByWorkspace, Event.ProjectsOnly]

/-- The files that both calls of the session find are not changed in between. -/
theorem Session.Example.timesTell {s : Session} (hs : (start new).run events = s) :
    TimesTell (s.looks ++ [⟨s.disk, "/p/A.csproj"⟩]) := by
  have hnamed : before.FilesNamed := by
    unfold before
    exact (Disk.filesNamed_empty.edit _).edit _
  have hbytes : ∀ e ∈ before.files, before.readBytes e.1.path = after.readBytes e.1.path := by
    decide +kernel
  rw [← hs, looks_run, disk_run]
  exact .of_added hnamed hbytes (by simp)

theorem Session.analyzeProject_eq_fromScratch_example :
    ∃ project, (((Session.start Example.new).run Example.events).analyzer.analyzeProject
        (Manner.workspace {} Example.after) {} "/p/A.csproj").result = .ok project ∧
      (Example.new.analyzeProject { provider := .workspace, disk := Example.after } {}
        "/p/A.csproj").result = .ok project := by
  have hnew : Analyzer.ofConfig {} = .ok Example.new := rfl
  obtain ⟨project, hok⟩ := Example.analyzeProject_ok
  have hdisk := Example.disk_run
  obtain ⟨s, hs⟩ : ∃ s, (Session.start Example.new).run Example.events = s := ⟨_, rfl⟩
  rw [hs] at hok hdisk ⊢
  generalize Example.after = after at hdisk hok
  subst hdisk
  exact ⟨project, hok,
    analyzeProject_eq_fromScratch hnew hnew Example.byWorkspace hs rfl (Example.timesTell hs) hok .inTurn⟩

end SolutionAtlas
