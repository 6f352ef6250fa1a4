-- SUMMARY: Which projects the analysis of a solution covers.
import Mathlib
import SolutionAtlas.Proofs.Analysis.SweepKeys
import SolutionAtlas.Proofs.Disk.Folders

/-!
# Covered projects

Which projects an analysis covers does not depend on what the analyzer has seen before: they are those
that the path stands for, that are not left out, and whose manifests can be read.
-/

namespace SolutionAtlas

/-- The full path of the project of a manifest, when it can be analyzed. -/
def Disk.projectAt? (d : Disk) (manifest : String) : Option String :=
  match d.canonical manifest with
  | .error _ => none
  | .ok full => if (d.readText full).toBool && (Path.parent? full).isSome then some full else none

/-- The manifests of the projects of a layout that are not left out. -/
def Layout.manifests (config : AnalyzerConfig) (layout : Layout) : List String :=
  (layout.projects.filter fun entry => !config.leavesOut layout.root entry).map (·.manifestPath)

/-- The manifests of the projects that a path stands for and that are not left out. -/
def manifestsOf (config : AnalyzerConfig) (d : Disk) (path : String) : List String :=
  match Layout.discover d path with
  | .ok layout => layout.manifests config
  | .error _ => []

/-! ## One project -/

theorem Disk.projectAt?_eq_some {d : Disk} {manifest full : String} :
    d.projectAt? manifest = some full ↔
      d.canonical manifest = .ok full ∧ (∃ text, d.readText full = .ok text) ∧
        ∃ directory, Path.parent? full = some directory := by
  have hread (path : String) : (d.readText path).toBool = true ↔ ∃ text, d.readText path = .ok text := by
    cases d.readText path <;> simp [Except.toBool]
  rw [projectAt?]
  cases d.canonical manifest with
  | error e => simp
  | ok path =>
    simp only [Option.ite_none_right_eq_some, Bool.and_eq_true, hread, Option.isSome_iff_exists,
      Option.some.injEq, Except.ok.injEq]
    constructor
    · rintro ⟨⟨htext, hdirectory⟩, rfl⟩
      exact ⟨rfl, htext, hdirectory⟩
    · rintro ⟨rfl, htext, hdirectory⟩
      exact ⟨⟨htext, hdirectory⟩, rfl⟩

namespace Analyzer

variable {a : Analyzer} {w : Workspace} {call : Call} {manifest full : String}

/-- A manifest that cannot be read ends its pass before anything is changed. -/
theorem pass_of_projectAt?_none (hw : w.provider = .workspace) (hcall : call.cancelled = false)
    (h : w.disk.projectAt? manifest = none) :
    ∃ e, e.isCancelled = false ∧ a.pass w call manifest = ⟨.error e, a, call⟩ := by
  cases hfull : w.disk.canonical manifest with
  | error e =>
    refine ⟨.invalidPath (manifest ++ ": " ++ e.message), rfl, ?_⟩
    simp only [pass, hcall, hfull, Bool.false_eq_true, if_false]
  | ok full =>
    cases htext : w.disk.readText full with
    | error e =>
      have hsource :
          w.provider.loadProject w.disk full = .error (.provider (full ++ ": " ++ e.message)) := by
        rw [hw, Provider.loadProject_workspace, Provider.loadFromDisk, Provider.loadBy, htext]
        rfl
      refine ⟨.provider (full ++ ": " ++ e.message), rfl, ?_⟩
      simp only [pass, hcall, hfull, hsource, Bool.false_eq_true, if_false]
    | ok text =>
      have hroot : Path.parent? full = none := by
        by_contra hsome
        obtain ⟨directory, hdirectory⟩ := Option.ne_none_iff_exists'.mp hsome
        rw [Disk.projectAt?_eq_some.mpr ⟨hfull, ⟨text, htext⟩, directory, hdirectory⟩] at h
        cases h
      have hsource : w.provider.loadProject w.disk full = .error (.invalidPath full) := by
        rw [hw, Provider.loadProject_workspace, Provider.loadFromDisk, Provider.loadBy, htext]
        simp only [hroot]
        rfl
      refine ⟨.invalidPath full, rfl, ?_⟩
      simp only [pass, hcall, hfull, hsource, Bool.false_eq_true, if_false]

theorem pass_of_projectAt?_some (hw : w.provider = .workspace) (hcall : call.cancelled = false)
    (h : w.disk.projectAt? manifest = some full) :
    ∃ directory source, w.provider.loadProject w.disk full = .ok source ∧
      Path.parent? full = some directory ∧
      a.pass w call manifest = a.analyzeSource w call full directory source := by
  obtain ⟨hfull, ⟨text, htext⟩, directory, hdirectory⟩ := Disk.projectAt?_eq_some.mp h
  obtain ⟨source, hsource⟩ := Provider.loadFromDisk_succeeds htext hdirectory
  rw [← Provider.loadProject_workspace, ← hw] at hsource
  refine ⟨directory, source, hsource, hdirectory, ?_⟩
  simp [pass, hcall, hfull, hsource, hdirectory]

/-- A pass over listed documents is given up, or it ends with the project and without being given up. -/
theorem analyzeSource_end (a : Analyzer) (w : Workspace) (call : Call) (full directory : String)
    (source : ProjectSource) :
    let o := a.analyzeSource w call full directory source
    o.result = .error .cancelled ∨ ∃ project report, o.result = .ok (project, report) ∧
      project.projectFilePath = full ∧ o.call.cancelled = false := by
  intro o
  simp only [o, analyzeSource]
  split
  · exact .inl rfl
  · rename_i hgoes
    exact .inr ⟨_, _, rfl, rfl, Bool.eq_false_iff.mpr hgoes⟩

/-- A pass that fails and is not given up has not come to a manifest. -/
theorem projectAt?_of_error (hw : w.provider = .workspace) (hcall : call.cancelled = false)
    {e : AnalysisError} (he : e.isCancelled = false) (herror : (a.pass w call manifest).result = .error e) :
    w.disk.projectAt? manifest = none := by
  by_contra hsome
  obtain ⟨full, hproject⟩ := Option.ne_none_iff_exists'.mp hsome
  obtain ⟨directory, source, -, -, hpass⟩ := pass_of_projectAt?_some (a := a) hw hcall hproject
  rw [hpass] at herror
  rcases a.analyzeSource_end w call full directory source with hcancelled | ⟨_, _, hok, -, -⟩
  · rw [hcancelled] at herror
    cases herror
    cases he
  · rw [hok] at herror
    cases herror

/-- A pass whose caller never gives up is not given up. -/
theorem pass_goes (hw : w.provider = .workspace) (hgoes : ∀ moment, w.givesUp moment = false)
    (hcall : call.cancelled = false) (manifest : String) :
    (a.pass w call manifest).call.cancelled = false ∧
      ∀ e, (a.pass w call manifest).result = .error e → e.isCancelled = false := by
  cases hproject : w.disk.projectAt? manifest with
  | none =>
    obtain ⟨e, he, hpass⟩ := pass_of_projectAt?_none (a := a) hw hcall hproject
    rw [hpass]
    refine ⟨hcall, fun e' herror => ?_⟩
    cases herror
    exact he
  | some full =>
    obtain ⟨directory, source, hsource, hdirectory, hpass⟩ :=
      pass_of_projectAt?_some (a := a) hw hcall hproject
    have hfull := (Disk.projectAt?_eq_some.mp hproject).1
    have hjobs := Workspace.not_givesUpAt hw hgoes a.options
    obtain ⟨result, hresult⟩ := a.pass_ok hcall hjobs hfull hsource hdirectory
    rw [hpass] at hresult ⊢
    rcases a.analyzeSource_end w call full directory source with hcancelled | ⟨_, _, hok, -, hafter⟩
    · rw [hcancelled] at hresult
      cases hresult
    · refine ⟨hafter, fun e herror => ?_⟩
      rw [hok] at herror
      cases herror

end Analyzer

/-! ## Sweeps -/

namespace Sweep

variable {w : Workspace} {root : String} {s : Sweep}

/-- What a visit to a project adds, by its manifest path. -/
theorem visit_end (hw : w.provider = .workspace) (entry : ProjectEntry)
    (hgoes : (s.visit w root entry).stopped = false) :
    let s' := s.visit w root entry
    s'.analyzer.config = s.analyzer.config ∧
      s'.projects.map (·.projectFilePath) = s.projects.map (·.projectFilePath) ++
        if s.analyzer.config.leavesOut root entry then []
        else (w.disk.projectAt? entry.manifestPath).toList := by
  have hconfig := (Analyzer.config_pass s.analyzer w s.call entry.manifestPath).1
  have hend := s.visited w root entry
  generalize s.visit w root entry = s' at hend hgoes ⊢
  cases hend with
  | givenUp => cases hgoes
  | leftOut _ _ hout =>
    rw [if_pos hout]
    exact ⟨rfl, (List.append_nil _).symm⟩
  | added _ hcall hin hok =>
    rename_i project report
    rw [if_neg (Bool.eq_false_iff.mp hin)]
    refine ⟨hconfig, ?_⟩
    cases hproject : w.disk.projectAt? entry.manifestPath with
    | none =>
      obtain ⟨e, -, hpass⟩ := Analyzer.pass_of_projectAt?_none (a := s.analyzer) hw hcall hproject
      rw [hpass] at hok
      cases hok
    | some full =>
      obtain ⟨directory, source, -, -, hpass⟩ :=
        Analyzer.pass_of_projectAt?_some (a := s.analyzer) hw hcall hproject
      rw [hpass] at hok
      rcases Analyzer.analyzeSource_end s.analyzer w s.call full directory source with
        hcancelled | ⟨project', report', hok', hpath, -⟩
      · rw [hcancelled] at hok
        cases hok
      · rw [hok'] at hok
        cases hok
        simp [hpath]
  | failed _ hcall hin herror =>
    rename_i e
    rw [if_neg (Bool.eq_false_iff.mp hin)]
    refine ⟨hconfig, ?_⟩
    have hnone : w.disk.projectAt? entry.manifestPath = none :=
      Analyzer.projectAt?_of_error hw hcall hgoes herror
    rw [hnone]
    exact (List.append_nil _).symm

/-- A sweep that is not stopped has the projects that are not left out and can be analyzed, in order. -/
theorem foldl_end (hw : w.provider = .workspace) (entries : List ProjectEntry)
    (hgoes : (entries.foldl (visit w root) s).stopped = false) :
    (entries.foldl (visit w root) s).projects.map (·.projectFilePath) =
      s.projects.map (·.projectFilePath) ++
        ((entries.filter fun entry => !s.analyzer.config.leavesOut root entry).map
          (·.manifestPath)).filterMap w.disk.projectAt? := by
  induction entries generalizing s with
  | nil => exact (List.append_nil _).symm
  | cons entry entries ih =>
    have hnext : (s.visit w root entry).stopped = false := not_stopped_of_foldl hgoes
    obtain ⟨hconfig, hprojects⟩ := visit_end hw entry hnext
    rw [List.foldl_cons, ih hgoes, hconfig, hprojects, List.append_assoc, List.filter_cons]
    cases s.analyzer.config.leavesOut root entry with
    | true => rfl
    | false =>
      cases hproject : w.disk.projectAt? entry.manifestPath <;> simp [hproject]

/-- A visit is not given up when the caller never gives up. -/
theorem visit_goes (hw : w.provider = .workspace) (hgoes : ∀ moment, w.givesUp moment = false)
    (entry : ProjectEntry) (hs : s.stopped = false ∧ s.call.cancelled = false) :
    (s.visit w root entry).stopped = false ∧ (s.visit w root entry).call.cancelled = false := by
  have hpass := Analyzer.pass_goes (a := s.analyzer) hw hgoes hs.2 entry.manifestPath
  have hend := s.visited w root entry
  generalize s.visit w root entry = s' at hend ⊢
  cases hend with
  | givenUp hgivesUp =>
    rw [hs.1, hs.2, hgoes] at hgivesUp
    cases hgivesUp
  | leftOut => exact hs
  | added => exact ⟨hs.1, hpass.1⟩
  | failed _ _ _ herror => exact ⟨hpass.2 _ herror, hpass.1⟩

theorem foldl_goes (hw : w.provider = .workspace) (hgoes : ∀ moment, w.givesUp moment = false)
    (entries : List ProjectEntry) (hs : s.stopped = false ∧ s.call.cancelled = false) :
    (entries.foldl (visit w root) s).stopped = false ∧
      (entries.foldl (visit w root) s).call.cancelled = false := by
  induction entries generalizing s with
  | nil => exact hs
  | cons entry entries ih => exact ih (visit_goes hw hgoes entry hs)

end Sweep

/-! ## Calls for solutions -/

namespace Analyzer

variable {a : Analyzer} {w : Workspace} {call : Call} {path : String}

/-- A call that succeeds covers the projects that the path stands for, that are not left out and can be
analyzed, in order. -/
theorem analyzeSolution_covers (hw : w.provider = .workspace) {s : Solution}
    (hok : (a.analyzeSolution w call path).result = .ok s) :
    s.projects.map (·.projectFilePath) =
      (manifestsOf a.config w.disk path).filterMap w.disk.projectAt? := by
  obtain ⟨layout, hlayout, hgoes, hs, -⟩ := analyzeSolution_ok hok
  rw [hs, Sweep.projects_solution, Sweep.foldl_end hw layout.projects hgoes, manifestsOf, hlayout]
  rfl

/-- A call whose caller does not give up succeeds when the path stands for projects. -/
theorem analyzeSolution_succeeds (hw : w.provider = .workspace)
    (hgoes : ∀ moment, w.givesUp moment = false) (hcall : call.cancelled = false) {layout : Layout}
    (hlayout : Layout.discover w.disk path = .ok layout) :
    ∃ s, (a.analyzeSolution w call path).result = .ok s := by
  have hend : (layout.projects.foldl (Sweep.visit w layout.root) { analyzer := a, call }).stopped = false :=
    (Sweep.foldl_goes hw hgoes layout.projects ⟨rfl, hcall⟩).1
  simp only [analyzeSolution, hcall, hlayout, hend, Bool.false_eq_true, if_false]
  exact ⟨_, rfl⟩

/-- Nor has the caller given up afterwards. -/
theorem call_analyzeSolution (hw : w.provider = .workspace) (hgoes : ∀ moment, w.givesUp moment = false)
    (hcall : call.cancelled = false) : (a.analyzeSolution w call path).call.cancelled = false := by
  unfold analyzeSolution
  rw [hcall, if_neg Bool.false_ne_true]
  split
  · exact hcall
  · rename_i layout _
    have hend : (layout.projects.foldl (Sweep.visit w layout.root) { analyzer := a, call }).call.cancelled =
        false :=
      (Sweep.foldl_goes hw hgoes layout.projects ⟨rfl, hcall⟩).2
    dsimp only
    split
    · exact hend
    · exact hend

end Analyzer

/-! ## Where manifests lie -/

namespace Layout

variable {d d' : Disk} {path : String} {layout : Layout}

theorem isAbsolute_join {directory more : String} (h : Path.isAbsolute directory = true) :
    Path.isAbsolute (Path.join directory more) = true := by
  cases hmore : Path.isAbsolute more with
  | true => rw [Path.join, if_pos hmore, hmore]
  | false => rw [(Path.split_join (Path.ne_empty_of_isAbsolute h) hmore).1, h]

theorem straight_of_manifestPath? {directory path manifest : String}
    (hdirectory : Path.isAbsolute directory = true)
    (h : SolutionFile.manifestPath? directory path = some manifest) : Path.Straight manifest := by
  simp only [SolutionFile.manifestPath?] at h
  split at h
  · obtain rfl := Option.some.inj h
    exact Path.straight_normalize (isAbsolute_join hdirectory)
  · cases h

theorem straight_ofSolutionFile (habs : Path.isAbsolute path = true)
    (h : ofSolutionFile d path = .ok layout) :
    ∀ entry ∈ layout.projects, Path.Straight entry.manifestPath := by
  rw [ofSolutionFile] at h
  split at h
  · cases h
  · rename_i text htext
    rw [directoryOf] at h
    cases hparent : Path.parent? path with
    | none =>
      rw [hparent] at h
      cases h
    | some directory =>
      rw [hparent] at h
      have hdirectory := Path.isAbsolute_parent? habs hparent
      cases h
      intro entry hentry
      dsimp only at hentry
      split at hentry
      · obtain ⟨m, -, hm⟩ := List.mem_filterMap.mp hentry
        obtain ⟨manifest, hmanifest, rfl⟩ := Option.map_eq_some_iff.mp hm
        exact straight_of_manifestPath? hdirectory hmanifest
      · obtain ⟨m, -, hm⟩ := List.mem_filterMap.mp hentry
        obtain ⟨manifest, hmanifest, rfl⟩ := Option.map_eq_some_iff.mp hm
        exact straight_of_manifestPath? hdirectory hmanifest

theorem straight_ofDirectory (hd : d.FilesNamed) {folder : Place} (hfolder : folder.Named)
    (h : ofDirectory d folder = .ok layout) :
    ∀ entry ∈ layout.projects, Path.Straight entry.manifestPath := by
  simp only [ofDirectory] at h
  split at h
  · rename_i first rest hfirst
    refine straight_ofSolutionFile ?_ h
    have hmem : first ∈ solutionFilesIn d folder := hfirst ▸ List.mem_cons_self
    obtain ⟨n, -, rfl⟩ := List.mem_map.mp hmem
    exact Path.isAbsolute_path _
  · split at h
    · cases h
    · cases h
      intro entry hentry
      obtain ⟨m, hm, rfl⟩ := List.mem_map.mp hentry
      have hlisted : m ∈ Scan.paths d true folder.path := List.mem_of_mem_filter hm
      obtain ⟨e, he, rfl⟩ := Scan.mem_files_of_mem_paths hd hfolder hlisted
      exact Path.straight_path (hd e he)

/-- The manifests that a path stands for are spelled straight down. -/
theorem straight_of_discover (hd : d.FilesNamed) (h : discover d path = .ok layout) :
    ∀ entry ∈ layout.projects, Path.Straight entry.manifestPath := by
  rw [discover] at h
  split at h
  · cases h
  · rename_i place hplace
    have hnamed : place.Named := Disk.eq_ofPath_of_locate hplace ▸ Place.named_ofPath path
    simp only at h
    split at h
    · exact straight_ofDirectory hd hnamed h
    · split at h
      · exact straight_ofSolutionFile (Path.isAbsolute_path place) h
      · split at h
        · rw [ofManifest, directoryOf] at h
          cases hparent : Path.parent? place.path with
          | none =>
            rw [hparent] at h
            cases h
          | some directory =>
            rw [hparent] at h
            cases h
            intro entry hentry
            rw [List.mem_singleton.mp hentry]
            exact Path.straight_path hnamed
        · cases h

theorem extension_of_discover {p : Place} (hp : d.locate path = .ok p) (hfile : d.isFolder p.path = false)
    (h : discover d path = .ok layout) :
    ∃ extension ∈ ["sln", "slnx", "csproj"], Path.hasExtension p.path extension = true := by
  simp only [discover, hp, hfile, Bool.false_eq_true, if_false] at h
  split at h
  · rename_i hsolution
    rcases Bool.or_eq_true_iff.mp hsolution with hsln | hslnx
    · exact ⟨_, by simp, hsln⟩
    · exact ⟨_, by simp, hslnx⟩
  · split at h
    · rename_i hcsproj
      exact ⟨_, by simp, hcsproj⟩
    · cases h

/-- A manifest stands for its own project. -/
theorem manifestPath_of_discover {p : Place} (hp : d.locate path = .ok p)
    (hfile : d.isFolder p.path = false) (hcsproj : Path.hasExtension p.path "csproj" = true)
    (h : discover d path = .ok layout) : ∀ entry ∈ layout.projects, entry.manifestPath = p.path := by
  have hsolution : isSolutionFile p.path = false := by
    rw [Path.hasExtension] at hcsproj
    rw [isSolutionFile, Path.hasExtension, Path.hasExtension]
    split at hcsproj
    · rename_i e he
      have hlower : Text.lowerAscii e = Text.lowerAscii "csproj" := beq_iff_eq.mp hcsproj
      simp only [Text.eqIgnoreCase, hlower]
      decide
    · cases hcsproj
  simp only [discover, hp, hfile, hsolution, hcsproj, Bool.false_eq_true, if_false, if_true] at h
  rw [ofManifest, directoryOf] at h
  cases hparent : Path.parent? p.path with
  | none =>
    rw [hparent] at h
    cases h
  | some directory =>
    rw [hparent] at h
    cases h
    exact fun entry hentry => List.mem_singleton.mp hentry ▸ rfl

/-- What a file stands for is told by its text. -/
theorem discover_congr {p : Place} (hp : d.locate path = .ok p) (hp' : d'.locate path = .ok p)
    (hfile : d.isFolder p.path = false) (hfile' : d'.isFolder p.path = false)
    (htext : d'.readText p.path = d.readText p.path) : discover d' path = discover d path := by
  simp only [discover, hp, hp', hfile, hfile', ofSolutionFile, htext, Bool.false_eq_true, if_false]

end Layout

theorem exists_of_mem_manifestsOf {config : AnalyzerConfig} {d : Disk} {path manifest : String}
    (h : manifest ∈ manifestsOf config d path) :
    ∃ layout, Layout.discover d path = .ok layout ∧
      ∃ entry ∈ layout.projects, entry.manifestPath = manifest := by
  rw [manifestsOf] at h
  split at h
  · rename_i layout hlayout
    obtain ⟨entry, hentry, hpath⟩ := List.mem_map.mp h
    exact ⟨layout, hlayout, entry, List.mem_of_mem_filter hentry, hpath⟩
  · cases h

theorem straight_of_mem_manifestsOf {config : AnalyzerConfig} {d : Disk} (hd : d.FilesNamed)
    {path manifest : String} (h : manifest ∈ manifestsOf config d path) : Path.Straight manifest := by
  obtain ⟨layout, hlayout, entry, hentry, rfl⟩ := exists_of_mem_manifestsOf h
  exact Layout.straight_of_discover hd hlayout entry hentry

end SolutionAtlas
