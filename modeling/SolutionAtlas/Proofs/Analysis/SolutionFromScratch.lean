-- SUMMARY: Analyzing a solution again gives what analyzing it from scratch gives.
import Mathlib
import SolutionAtlas.Proofs.Analysis.Coverage
import SolutionAtlas.Proofs.Analysis.FromScratch

/-!
# Solutions from scratch

The projects of a solution are analyzed one after the other by one analyzer, which has seen other
projects and other states of the files before. Since each pass gives what a new analyzer finds of its
project, so does the whole: a solution is made of what a new analyzer finds of each project.
-/

namespace SolutionAtlas

/-- What the analysis of a path looks at: the projects that are not left out. -/
def looksOf (config : AnalyzerConfig) (d : Disk) (path : String) : List Look :=
  (manifestsOf config d path).map fun manifest => ⟨d, manifest⟩

/-- What a new analyzer finds of a project. -/
def Analyzer.findProject? (new : Analyzer) (d : Disk) (manifest : String) : Option Project :=
  (new.analyzeProject (Look.workspace ⟨d, manifest⟩) {} manifest).result.toOption

theorem TimesTell.mono {looks more : List Look} (h : TimesTell more) (hsub : looks ⊆ more) :
    TimesTell looks :=
  fun l hl l' hl' => h l (hsub hl) l' (hsub hl')

/-- Nothing changes in one state of the files. -/
theorem TimesTell.of_disk {looks : List Look} {d : Disk} (h : ∀ l ∈ looks, l.disk = d) :
    TimesTell looks := by
  intro l hl l' hl' path t _ _ _ _
  rw [h l hl, h l' hl']

theorem disk_of_mem_looksOf {config : AnalyzerConfig} {d : Disk} {path : String} :
    ∀ l ∈ looksOf config d path, l.disk = d := by
  intro l hl
  obtain ⟨manifest, -, rfl⟩ := List.mem_map.mp hl
  rfl

/-! ## One project -/

namespace Session.Remembering

variable {new : Analyzer} {s : Session} {m : Manner} {manifest : String}

theorem more (h : s.Remembering new) {looks : List Look} (hlooks : ∀ l ∈ looks, l.disk.FilesNamed) :
    Remembering new { s with looks := s.looks ++ looks } where
  filesNamed := h.filesNamed
  looksNamed := fun l hl => (List.mem_append.mp hl).elim (h.looksNamed l) (hlooks l)
  config := h.config
  exclude := h.exclude
  remembered := by
    intro project key document hdocument
    obtain ⟨l, hl, hrest⟩ := h.remembered project key document hdocument
    exact ⟨l, List.mem_append_left _ hl, hrest⟩

/-- Changes of the files leave what is remembered. -/
theorem on_disk (h : s.Remembering new) {d : Disk} (hd : d.FilesNamed) :
    Remembering new { s with disk := d } :=
  { h with filesNamed := hd }

/-- A pass over a project whose look is counted among those of the session. -/
theorem pass (h : s.Remembering new) (hm : m.provider = .workspace) (hlook : ⟨s.disk, manifest⟩ ∈ s.looks)
    (call : Call) :
    Remembering new { s with
      analyzer := (s.analyzer.pass (m.workspace s.disk) call manifest).analyzer } := by
  have hstep := h.analyzeProject (m := { m with call }) hm manifest
  obtain ⟨report, hanalyzer⟩ :=
    s.analyzer.analyzer_analyzeProject (m.workspace s.disk) call manifest
  have hlooks : (s.step (.analyzeProject { m with call } manifest)).looks ⊆ s.looks := by
    intro l hl
    simp only [Session.step] at hl
    split at hl
    · exact hl
    · rcases List.mem_append.mp hl with hl | hl
      · exact hl
      · exact List.mem_singleton.mp hl ▸ hlook
  have hafter : (s.step (.analyzeProject { m with call } manifest)).analyzer =
      { (s.analyzer.pass (m.workspace s.disk) call manifest).analyzer with lastReport := report } :=
    hanalyzer
  have hconfig := hstep.config
  have hexclude := hstep.exclude
  have hremembered := hstep.remembered
  rw [hafter] at hconfig hexclude hremembered
  refine ⟨h.filesNamed, h.looksNamed, hconfig, hexclude, fun project key document hdocument => ?_⟩
  obtain ⟨l, hl, hrest⟩ := hremembered project key document hdocument
  exact ⟨l, hlooks hl, hrest⟩

/-- A pass gives what a new analyzer finds of the project. -/
theorem findProject?_of_pass (h : s.Remembering new) (hempty : new.documents = [])
    (hm : m.provider = .workspace) (htimes : TimesTell s.looks) (hlook : ⟨s.disk, manifest⟩ ∈ s.looks)
    {call : Call} {project : Project} {report : AnalysisReport}
    (hok : (s.analyzer.pass (m.workspace s.disk) call manifest).result = .ok (project, report)) :
    new.findProject? s.disk manifest = some project := by
  have hone : [⟨s.disk, manifest⟩] ⊆ s.looks := List.cons_subset.mpr ⟨hlook, List.nil_subset _⟩
  have htimes' : TimesTell (s.looks ++ [⟨s.disk, manifest⟩]) :=
    htimes.mono (List.append_subset.mpr ⟨List.Subset.refl _, hone⟩)
  have hresult : (new.analyzeProject { provider := .workspace, disk := s.disk, schedule := .inTurn } {}
      manifest).result = .ok project :=
    h.result_eq rfl rfl hempty rfl (m := { m with call }) hm htimes' .inTurn
      (Analyzer.analyzeProject_ok.mpr ⟨report, hok⟩)
  exact congrArg Except.toOption hresult

/-- When a pass fails and is not given up, a new analyzer fails as well. -/
theorem findProject?_of_error (hm : m.provider = .workspace) {call : Call} (hcall : call.cancelled = false)
    {e : AnalysisError} (he : e.isCancelled = false)
    (herror : (s.analyzer.pass (m.workspace s.disk) call manifest).result = .error e) :
    new.findProject? s.disk manifest = none := by
  have hproject : s.disk.projectAt? manifest = none :=
    Analyzer.projectAt?_of_error (w := m.workspace s.disk) hm hcall he herror
  have hnone : ({} : Call).cancelled = false := rfl
  obtain ⟨e', -, hpass⟩ := Analyzer.pass_of_projectAt?_none (a := new)
    (w := Look.workspace ⟨s.disk, manifest⟩) rfl hnone hproject
  have hresult : (new.analyzeProject (Look.workspace ⟨s.disk, manifest⟩) {} manifest).result =
      .error e' := by
    rw [Analyzer.analyzeProject, hpass]
  rw [Analyzer.findProject?, hresult]
  rfl

end Session.Remembering

/-! ## Sweeps -/

namespace Sweep

variable {new : Analyzer} {d : Disk} {looks : List Look} {m : Manner} {root : String} {s : Sweep}

theorem remembering_visit (h : Session.Remembering new ⟨d, s.analyzer, looks⟩)
    (hm : m.provider = .workspace) {entry : ProjectEntry}
    (hlook : new.config.leavesOut root entry = false → ⟨d, entry.manifestPath⟩ ∈ looks) :
    Session.Remembering new ⟨d, (s.visit (m.workspace d) root entry).analyzer, looks⟩ := by
  have hconfig : s.analyzer.config = new.config := h.config
  rw [← hconfig] at hlook
  have hend := s.visited (m.workspace d) root entry
  generalize s.visit (m.workspace d) root entry = s' at hend ⊢
  cases hend with
  | givenUp => exact h
  | leftOut => exact h
  | added _ _ hin => exact h.pass hm (hlook hin) s.call
  | failed _ _ hin => exact h.pass hm (hlook hin) s.call

/-- What a visit adds, when it is not given up. -/
theorem visit_adds (h : Session.Remembering new ⟨d, s.analyzer, looks⟩) (hempty : new.documents = [])
    (hm : m.provider = .workspace) (htimes : TimesTell looks) {entry : ProjectEntry}
    (hlook : new.config.leavesOut root entry = false → ⟨d, entry.manifestPath⟩ ∈ looks)
    (hgoes : (s.visit (m.workspace d) root entry).stopped = false) :
    let s' := s.visit (m.workspace d) root entry
    s'.projects = s.projects ++
        (if new.config.leavesOut root entry then [] else (new.findProject? d entry.manifestPath).toList) ∧
      s'.excludedPackages = s.excludedPackages ++
        if new.config.leavesOut root entry then packagesOf d entry.manifestPath else [] := by
  have hconfig : s.analyzer.config = new.config := h.config
  have hend := s.visited (m.workspace d) root entry
  generalize s.visit (m.workspace d) root entry = s' at hend hgoes ⊢
  cases hend with
  | givenUp => cases hgoes
  | leftOut _ _ hout =>
    rw [hconfig] at hout
    rw [if_pos hout, if_pos hout]
    exact ⟨(List.append_nil _).symm, rfl⟩
  | added _ _ hin hok =>
    rw [hconfig] at hin
    rw [if_neg (Bool.eq_false_iff.mp hin), if_neg (Bool.eq_false_iff.mp hin),
      h.findProject?_of_pass hempty hm htimes (hlook hin) hok]
    exact ⟨rfl, (List.append_nil _).symm⟩
  | failed _ hcall hin herror =>
    rw [hconfig] at hin
    have hnone : new.findProject? d entry.manifestPath = none :=
      Session.Remembering.findProject?_of_error (s := ⟨d, s.analyzer, looks⟩) hm hcall hgoes herror
    rw [if_neg (Bool.eq_false_iff.mp hin), if_neg (Bool.eq_false_iff.mp hin), hnone]
    exact ⟨(List.append_nil _).symm, (List.append_nil _).symm⟩

theorem remembering_foldl (h : Session.Remembering new ⟨d, s.analyzer, looks⟩)
    (hm : m.provider = .workspace) {entries : List ProjectEntry}
    (hlooks : ∀ entry ∈ entries,
      new.config.leavesOut root entry = false → ⟨d, entry.manifestPath⟩ ∈ looks) :
    Session.Remembering new ⟨d, (entries.foldl (visit (m.workspace d) root) s).analyzer, looks⟩ := by
  induction entries generalizing s with
  | nil => exact h
  | cons entry entries ih =>
    obtain ⟨hlook, hlooks⟩ := List.forall_mem_cons.mp hlooks
    exact ih (remembering_visit h hm hlook) hlooks

/-- A sweep that is not given up has what a new analyzer finds of each project that is not left out. -/
theorem foldl_adds (h : Session.Remembering new ⟨d, s.analyzer, looks⟩) (hempty : new.documents = [])
    (hm : m.provider = .workspace) (htimes : TimesTell looks) {entries : List ProjectEntry}
    (hlooks : ∀ entry ∈ entries,
      new.config.leavesOut root entry = false → ⟨d, entry.manifestPath⟩ ∈ looks)
    (hgoes : (entries.foldl (visit (m.workspace d) root) s).stopped = false) :
    let last := entries.foldl (visit (m.workspace d) root) s
    last.projects = s.projects ++ (entries.filter fun entry => !new.config.leavesOut root entry).filterMap
        (fun entry => new.findProject? d entry.manifestPath) ∧
      last.excludedPackages = s.excludedPackages ++ (entries.filter (new.config.leavesOut root)).flatMap
        fun entry => packagesOf d entry.manifestPath := by
  induction entries generalizing s with
  | nil => exact ⟨(List.append_nil _).symm, (List.append_nil _).symm⟩
  | cons entry entries ih =>
    obtain ⟨hlook, hlooks⟩ := List.forall_mem_cons.mp hlooks
    have hnext : (s.visit (m.workspace d) root entry).stopped = false := not_stopped_of_foldl hgoes
    obtain ⟨hprojects, hpackages⟩ := visit_adds h hempty hm htimes hlook hnext
    obtain ⟨hprojects', hpackages'⟩ := ih (remembering_visit h hm hlook) hlooks hgoes
    intro last
    have hlast : last =
        entries.foldl (visit (m.workspace d) root) (s.visit (m.workspace d) root entry) := rfl
    rw [hlast, hprojects', hpackages', hprojects, hpackages, List.append_assoc, List.append_assoc,
      List.filter_cons, List.filter_cons]
    cases new.config.leavesOut root entry with
    | true => exact ⟨rfl, rfl⟩
    | false =>
      refine ⟨?_, rfl⟩
      cases hproject : new.findProject? d entry.manifestPath <;> simp [hproject]

/-- A solution is put together from the projects and from the packages of those left out. -/
theorem solution_congr {s' : Sweep} (hprojects : s.projects = s'.projects)
    (hpackages : s.excludedPackages = s'.excludedPackages)
    (hdepth : s.analyzer.config.editorConfigSearchDepth = s'.analyzer.config.editorConfigSearchDepth)
    (layout : Layout) : s.solution d layout = s'.solution d layout := by
  simp only [solution, hprojects, hpackages, hdepth]

end Sweep

/-! ## Solutions -/

theorem mem_looksOf {config : AnalyzerConfig} {d : Disk} {path : String} {layout : Layout}
    (hlayout : Layout.discover d path = .ok layout) {entry : ProjectEntry}
    (hentry : entry ∈ layout.projects) (hin : config.leavesOut layout.root entry = false) :
    ⟨d, entry.manifestPath⟩ ∈ looksOf config d path := by
  refine List.mem_map.mpr ⟨entry.manifestPath, ?_, rfl⟩
  rw [manifestsOf, hlayout]
  exact List.mem_map.mpr ⟨entry, List.mem_filter.mpr ⟨hentry, by rw [hin]; rfl⟩, rfl⟩

namespace Session.Remembering

variable {new : Analyzer} {s : Session} {m : Manner} {path : String}

theorem filesNamed_looksOf (h : s.Remembering new) (config : AnalyzerConfig) (path : String) :
    ∀ l ∈ looksOf config s.disk path, l.disk.FilesNamed := by
  intro l hl
  rw [disk_of_mem_looksOf l hl]
  exact h.filesNamed

/-- What the analyzer of a session remembers after the analysis of a solution. -/
theorem analyzeSolution (h : s.Remembering new) (hm : m.provider = .workspace) (call : Call)
    (path : String) :
    Remembering new ⟨s.disk, (s.analyzer.analyzeSolution (m.workspace s.disk) call path).analyzer,
      s.looks ++ looksOf new.config s.disk path⟩ := by
  have hmore := h.more (h.filesNamed_looksOf new.config path)
  unfold Analyzer.analyzeSolution
  split
  · exact hmore
  · split
    · exact hmore
    · rename_i layout hlayout
      have hlooks : ∀ entry ∈ layout.projects, new.config.leavesOut layout.root entry = false →
          ⟨s.disk, entry.manifestPath⟩ ∈ s.looks ++ looksOf new.config s.disk path :=
        fun entry hentry hin => List.mem_append_right _ (mem_looksOf hlayout hentry hin)
      have hlast := Sweep.remembering_foldl (s := { analyzer := s.analyzer, call }) hmore hm hlooks
      dsimp only
      split
      · exact hlast
      · exact ⟨hlast.filesNamed, hlast.looksNamed, hlast.config, hlast.exclude, hlast.remembered⟩

/-- The analysis of a solution, when it succeeds, gives what a new analyzer finds. -/
theorem solution_eq (h : s.Remembering new) (hempty : new.documents = []) (hm : m.provider = .workspace)
    {call : Call} (htimes : TimesTell (s.looks ++ looksOf new.config s.disk path)) {solution : Solution}
    (hok : (s.analyzer.analyzeSolution (m.workspace s.disk) call path).result = .ok solution) :
    (new.analyzeSolution (Manner.workspace {} s.disk) {} path).result = .ok solution := by
  obtain ⟨layout, hlayout, hgoes, rfl, -⟩ := Analyzer.analyzeSolution_ok hok
  have hlayout' : Layout.discover (Manner.workspace {} s.disk).disk path = .ok layout := hlayout
  have hcall : ({} : Call).cancelled = false := rfl
  obtain ⟨solution', hok'⟩ :=
    Analyzer.analyzeSolution_succeeds (a := new) rfl (fun _ => rfl) hcall hlayout'
  rw [hok']
  obtain ⟨layout', hlayout'', hgoes', rfl, -⟩ := Analyzer.analyzeSolution_ok hok'
  obtain rfl : layout = layout' := Except.ok.inj (hlayout.symm.trans hlayout'')
  have hnamed := h.filesNamed_looksOf new.config path
  have hlooks : ∀ entry ∈ layout.projects, new.config.leavesOut layout.root entry = false →
      ⟨s.disk, entry.manifestPath⟩ ∈ looksOf new.config s.disk path :=
    fun entry hentry hin => mem_looksOf hlayout hentry hin
  have hlooks' : ∀ entry ∈ layout.projects, new.config.leavesOut layout.root entry = false →
      ⟨s.disk, entry.manifestPath⟩ ∈ s.looks ++ looksOf new.config s.disk path :=
    fun entry hentry hin => List.mem_append_right _ (hlooks entry hentry hin)
  have hkept := h.more hnamed
  have hscratch : Remembering new ⟨s.disk, new, looksOf new.config s.disk path⟩ :=
    of_new hempty h.filesNamed hnamed
  obtain ⟨hprojects, hpackages⟩ :=
    Sweep.foldl_adds (s := { analyzer := s.analyzer, call }) hkept hempty hm htimes hlooks' hgoes
  obtain ⟨hprojects', hpackages'⟩ :=
    Sweep.foldl_adds (s := { analyzer := new, call := {} }) (m := {}) hscratch hempty rfl
      (.of_disk disk_of_mem_looksOf) hlooks hgoes'
  have hlast := Sweep.remembering_foldl (s := { analyzer := s.analyzer, call }) hkept hm hlooks'
  have hlast' :=
    Sweep.remembering_foldl (s := { analyzer := new, call := {} }) (m := {}) hscratch rfl hlooks
  congr 1
  refine Sweep.solution_congr (hprojects'.trans hprojects.symm) (hpackages'.trans hpackages.symm) ?_ layout
  exact congrArg _ (hlast'.config.trans hlast.config.symm)

end Session.Remembering

end SolutionAtlas
