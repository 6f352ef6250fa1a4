-- SUMMARY: Files have the same number of lines whether they are parsed, left out or fail to be parsed.
import Mathlib
import SolutionAtlas.Proofs.Analysis.FromScratch
import SolutionAtlas.Proofs.Disk.Folders
import SolutionAtlas.Proofs.Path.Course
import SolutionAtlas.Proofs.Text.Lines

/-!
# Lines of files

The lines of a file are those that its outline has found, or they are counted in its bytes when there is no outline.
Both numbers are the same as long as outlines are those of the texts that are there, so it does not show in the files
of a project which of its documents have been analyzed.
-/

namespace SolutionAtlas

/-- The parser finds as many lines in a text as a count over its bytes does. -/
theorem CSharp.Outline.lineCount_ofSource {bytes : ByteArray} {text : String}
    (h : String.fromUTF8? bytes = some text) : (ofSource text).lineCount = Text.countLines bytes := by
  rw [Text.countLines_of_fromUTF8? h]
  rfl

/-! ## Listed documents -/

/-- What the lines of documents rest on: documents are source files, and the outline of a document is that of its
text, if there is one. -/
structure Provider.ParsesText (p : Provider) : Prop where
  listed : ∀ (d : Disk) (manifest : String) (source : ProjectSource), p.loadProject d manifest = .ok source →
    ∀ path ∈ source.documents, Path.hasExtension path "cs" = true
  parsed : ∀ path text outline, (p.parseDocument path text).result = .ok outline → outline = .ofSource text

/-- A provider that lists the files of the disk may fail to parse any of them. -/
theorem Provider.parsesText_of_loadFromDisk {p : Provider} (hload : p.loadProject = loadFromDisk)
    (hparse : ∀ path text outline, (p.parseDocument path text).result = .ok outline → outline = .ofSource text) :
    p.ParsesText where
  listed := by
    intro d manifest source hsource path hpath
    rw [hload] at hsource
    exact hasExtension_of_loadFromDisk hsource hpath
  parsed := hparse

theorem Provider.workspace_parsesText : Provider.workspace.ParsesText :=
  parsesText_of_loadFromDisk rfl fun _ _ _ h => (Except.ok.inj h).symm

theorem FileKind.hasLines_classify {path : String} (h : Path.hasExtension path "cs" = true) :
    (classify path).hasLines = true := by
  unfold Path.hasExtension at h
  unfold classify
  dsimp only
  split
  · rfl
  · cases hextension : Path.extension? path with
    | none =>
      rw [hextension] at h
      cases h
    | some extension =>
      rw [hextension] at h
      have hlower : Text.lowerAscii extension = "cs" := (beq_iff_eq.mp h).trans (by decide +kernel)
      rw [Option.getD_some, hlower]
      rfl

theorem FileKind.classify_congr {path path' : String} (h : Path.components path = Path.components path') :
    classify path = classify path' := by
  unfold classify Path.extension? Path.fileName?
  rw [h]

/-! ## Lines of one file -/

namespace Disk

variable {d : Disk} {text path path' : String}

theorem eq_walk_of_locate {p : Place} (h : d.locate path = .ok p) : p = Place.walk [] path := by
  have hplace := eq_ofPath_of_locate h
  unfold locate at h
  split at h
  · rename_i habs
    obtain ⟨rest, -, hsplit⟩ := Path.split_of_isAbsolute habs
    rw [hplace, Place.ofPath, Place.walk, if_pos habs, hsplit]
    rfl
  · cases h

/-- What can be read as text in one spelling of its path, can be read in any other that leads to something. -/
theorem readText_congr (h : Path.components path = Path.components path') (htext : d.readText path = .ok text)
    {e : Entry} (hfind : d.find path' = .ok e) : d.readText path' = .ok text := by
  obtain ⟨p, data, hp, hdata, hutf8⟩ := readText_eq_ok.mp htext
  obtain ⟨p', hp', -⟩ := find_eq_ok.mp hfind
  have hplace : p = p' := by
    rw [eq_walk_of_locate hp, eq_walk_of_locate hp', Place.walk_eq_foldl, Place.walk_eq_foldl, h]
  subst hplace
  exact readText_eq_ok.mpr ⟨p, data, hp', hdata, hutf8⟩

end Disk

section Files

variable {d : Disk} {text path : String} {kind : FileKind}

/-- The lines of a file that can be read as text are those of the outline of the text. -/
theorem linesOf_nil_of_readText (hkind : kind.hasLines = true) (h : d.readText path = .ok text) :
    linesOf d [] kind path = (CSharp.Outline.ofSource text).lineCount := by
  obtain ⟨p, data, hp, hdata, hutf8⟩ := Disk.readText_eq_ok.mp h
  rw [CSharp.Outline.lineCount_ofSource hutf8, linesOf, Table.get?_nil]
  dsimp only
  rw [if_pos hkind, Disk.readBytes_of_locate hp hdata]

theorem lineCount_of_mem_fileEntries {source : ProjectSource} {documents : Table AnalyzedDocument}
    {root project : String} {f : FileEntry} (hf : f ∈ fileEntries d source root project documents) :
    f.lineCount = linesOf d documents f.kind f.filePath := by
  obtain ⟨path, -, hentry⟩ := List.mem_filterMap.mp hf
  dsimp only at hentry
  split at hentry
  · cases hentry
  · rw [← Option.some.inj hentry]

/-- Files are the same when the lines are of all that are there. -/
theorem fileEntries_congr {source : ProjectSource} {documents documents' : Table AnalyzedDocument}
    (h : ∀ path e, d.find path = .ok e → linesOf d documents (FileKind.classify path) path =
      linesOf d documents' (FileKind.classify path) path) (root project : String) :
    fileEntries d source root project documents = fileEntries d source root project documents' := by
  refine List.filterMap_congr fun path _ => ?_
  split
  · rfl
  · rename_i e hfind
    simp only [h path e hfind]

end Files

/-! ## Lines of a project -/

namespace Analyzer

variable {a b : Analyzer} {w w' : Workspace} {call call' : Call} {manifest : String} {project project' : Project}

/-- What would be taken over of the documents of a project has the numbers of lines that they have now. -/
def UpToDate (a : Analyzer) (w : Workspace) (manifest : String) : Prop :=
  ∀ project directory source, w.disk.canonical manifest = .ok project →
    w.provider.loadProject w.disk project = .ok source → Path.parent? project = some directory →
    ∀ j ∈ (a.planFor w.disk project (source.rootDirs.head?.getD directory) source).stamped.jobs, ∀ document,
      reusable? (a.documentsOf project) j = some document →
        ∃ text, w.disk.readText j.path = .ok text ∧ document.lineCount = (CSharp.Outline.ofSource text).lineCount

theorem upToDate_of_new (h : a.documents = []) (w : Workspace) (manifest : String) : a.UpToDate w manifest := by
  intro project directory source _ _ _ j _ document hreused
  rw [documentsOf_new h] at hreused
  cases hreused

/-- What is kept of a document, be it taken over or found out, has the lines of the text that is there. -/
theorem UpToDate.resultFor (h : a.UpToDate w manifest) (hprovider : w.provider.ParsesText) {path directory : String}
    {source : ProjectSource} (hpath : w.disk.canonical manifest = .ok path)
    (hsource : w.provider.loadProject w.disk path = .ok source) (hdirectory : Path.parent? path = some directory)
    {j : DocumentJob}
    (hj : j ∈ (a.planFor w.disk path (source.rootDirs.head?.getD directory) source).stamped.jobs)
    {document : AnalyzedDocument}
    (hresult : w.resultFor? a.options (a.documentsOf path) j = some document) :
    ∃ text, w.disk.readText j.path = .ok text ∧ document.lineCount = (CSharp.Outline.ofSource text).lineCount := by
  rcases Workspace.resultFor?_eq_some.mp hresult with hreused | ⟨-, houtcome⟩
  · exact h path directory source hpath hsource hdirectory j hj document hreused
  · obtain ⟨text, outline, htext, hparse, rfl⟩ := Workspace.outcome_eq_ok houtcome
    refine ⟨text, htext, ?_⟩
    rw [AnalyzedDocument.ofOutline_lineCount, hprovider.parsed j.path text outline hparse]

/-- The files of a project are those that are found when none of its documents is analyzed. -/
theorem files_eq_counted (hprovider : w.provider.ParsesText) (hup : a.UpToDate w manifest)
    (hok : (a.analyzeProject w call manifest).result = .ok project) :
    ∃ path directory source, w.disk.canonical manifest = .ok path ∧ w.provider.loadProject w.disk path = .ok source ∧
      Path.parent? path = some directory ∧
      project.files = fileEntries w.disk source (source.rootDirs.head?.getD directory) path [] := by
  obtain ⟨report, hpass⟩ := analyzeProject_ok.mp hok
  obtain ⟨path, directory, source, order, -, hpath, hsource, hdirectory, -, hproject, -⟩ := pass_succeeds hpass
  refine ⟨path, directory, source, hpath, hsource, hdirectory, ?_⟩
  rw [show project = _ from hproject]
  apply fileEntries_congr
  intro file e hfind
  rw [linesOf]
  split
  · rename_i document hdocument
    obtain ⟨j, hj, hkey, hresult⟩ := (Workspace.get?_kept Stamped.jobs_nodup).mp hdocument
    obtain ⟨text, htext, hlines⟩ := hup.resultFor hprovider hpath hsource hdirectory hj hresult
    -- The document that is found under the key of the file is the file itself, perhaps spelled in another way.
    have hsame : Path.components j.path = Path.components file := by
      rw [← Path.components_tidy, hkey, Path.components_tidy]
    have hkind : (FileKind.classify file).hasLines = true := by
      rw [← FileKind.classify_congr hsame]
      exact FileKind.hasLines_classify (hprovider.listed _ _ _ hsource j.path (Stamped.mem_jobs hj).1)
    rw [hlines, linesOf_nil_of_readText hkind (Disk.readText_congr hsame htext hfind)]
  · rw [linesOf, Table.get?_nil]

theorem totalLines_of_ok (hok : (a.analyzeProject w call manifest).result = .ok project) :
    project.statistics.totalLines = totalOf (·.lineCount) project.files := by
  obtain ⟨report, hpass⟩ := analyzeProject_ok.mp hok
  obtain ⟨path, directory, source, order, -, -, -, -, -, hproject, -⟩ := pass_succeeds hpass
  rw [show project = _ from hproject]
  rfl

/-- Projects that are listed alike have the same files, whichever of their documents have been analyzed. -/
theorem files_eq (hprovider : w.provider.ParsesText) (hup : a.UpToDate w manifest)
    (hok : (a.analyzeProject w call manifest).result = .ok project) (hdisk : w'.disk = w.disk)
    (hload : w'.provider.loadProject = w.provider.loadProject) (hprovider' : w'.provider.ParsesText)
    (hup' : b.UpToDate w' manifest) (hok' : (b.analyzeProject w' call' manifest).result = .ok project') :
    project'.files = project.files := by
  obtain ⟨path, directory, source, hpath, hsource, hdirectory, hfiles⟩ := files_eq_counted hprovider hup hok
  obtain ⟨path', directory', source', hpath', hsource', hdirectory', hfiles'⟩ :=
    files_eq_counted hprovider' hup' hok'
  rw [hdisk] at hpath' hsource' hfiles'
  rw [hload] at hsource'
  -- The disk leaves both calls no choice of what they work on.
  obtain rfl : path = path' := Except.ok.inj (hpath.symm.trans hpath')
  obtain rfl : source = source' := Except.ok.inj (hsource.symm.trans hsource')
  obtain rfl : directory = directory' := Option.some.inj (hdirectory.symm.trans hdirectory')
  rw [hfiles, hfiles']

end Analyzer

/-- The analyzer of a session is up to date when times of change tell the contents of documents. -/
theorem Session.Remembering.upToDate {a : Analyzer} {s : Session} {m : Manner} {manifest : String}
    (h : s.Remembering a) (htimes : TimesTell (s.looks ++ [⟨s.disk, manifest⟩]))
    (hload : m.provider.loadProject = Provider.loadFromDisk) :
    s.analyzer.UpToDate (m.workspace s.disk) manifest := by
  intro project directory source hproject hsource hdirectory j hj document hreused
  rw [Manner.workspace, hload] at hsource
  have hfinds := h.finds hproject hsource hdirectory hj
  obtain ⟨l, hl, hfound, houtcome⟩ := h.of_reusable hfinds hreused
  have hbytes : l.disk.readBytes j.path = s.disk.readBytes j.path := htimes.readBytes_eq hl hfound hfinds
  obtain ⟨text, outline, htext, hparse, rfl⟩ := Workspace.outcome_eq_ok houtcome
  have hread : s.disk.readText j.path = .ok text := by
    rw [Disk.readText, ← hbytes]
    exact htext
  refine ⟨text, hread, ?_⟩
  rw [AnalyzedDocument.ofOutline_lineCount, Provider.workspace_parsesText.parsed j.path text outline hparse]

/-- Lists the files of the disk, and finds no text in which it could parse anything. -/
def Provider.unparsing : Provider :=
  { Provider.workspace with parseDocument := fun path _ => ⟨.error (.provider (path ++ ": no text")), false⟩ }

/-- The parser finds as many lines in a text as are counted in its bytes. So every file of a project has the lines
that are counted in it, and neither the files nor the sum of their lines show which documents have been parsed, left
out by an analyzer or given up by the parser. -/
theorem Analyzer.lines_parsed_or_counted :
    (∀ bytes text, String.fromUTF8? bytes = some text →
      (CSharp.Outline.ofSource text).lineCount = Text.countLines bytes) ∧
    ∀ (a : Analyzer) (w : Workspace) (call : Call) (manifest : String) (project : Project),
      w.provider.ParsesText → a.UpToDate w manifest →
      (a.analyzeProject w call manifest).result = .ok project →
      (∀ f ∈ project.files, f.lineCount = linesOf w.disk [] f.kind f.filePath) ∧
      ∀ (b : Analyzer) (w' : Workspace) (call' : Call) (project' : Project),
        w'.disk = w.disk → w'.provider.loadProject = w.provider.loadProject → w'.provider.ParsesText →
        b.UpToDate w' manifest → (b.analyzeProject w' call' manifest).result = .ok project' →
        project'.files = project.files ∧ project'.statistics.totalLines = project.statistics.totalLines := by
  constructor
  · intro bytes text htext
    exact CSharp.Outline.lineCount_ofSource htext
  · intro a w call manifest project hprovider hup hok
    constructor
    · intro f hf
      obtain ⟨path, directory, source, -, -, -, hfiles⟩ := files_eq_counted hprovider hup hok
      rw [hfiles] at hf
      exact lineCount_of_mem_fileEntries hf
    · intro b w' call' project' hdisk hload hprovider' hup' hok'
      have hfiles := files_eq hprovider hup hok hdisk hload hprovider' hup' hok'
      refine ⟨hfiles, ?_⟩
      rw [totalLines_of_ok hok', totalLines_of_ok hok, hfiles]

theorem Provider.unparsing_parsesText : unparsing.ParsesText :=
  parsesText_of_loadFromDisk rfl fun _ _ _ h => nomatch h

/-- An analysis in which nothing can be parsed succeeds all the same. -/
theorem Analyzer.analyzeProject_unparsing (a : Analyzer) {d : Disk} {manifest path root text : String}
    (hpath : d.canonical manifest = .ok path) (hroot : Path.parent? path = some root)
    (htext : d.readText path = .ok text) :
    ∃ project, (a.analyzeProject { provider := .unparsing, disk := d } {} manifest).result = .ok project := by
  obtain ⟨source, hsource⟩ := Provider.loadFromDisk_succeeds htext hroot
  have hgoes (j : DocumentJob) : ¬({ provider := .unparsing, disk := d } : Workspace).GivesUpAt a.options j := by
    rintro (hbefore | hwhile)
    · cases hbefore
    · unfold Workspace.analyzeDocument at hwhile
      dsimp only at hwhile
      split at hwhile <;> cases hwhile
  have hcall : ({} : Call).cancelled = false := rfl
  obtain ⟨⟨project, report⟩, hpass⟩ := a.pass_ok hcall hgoes hpath hsource hroot
  exact ⟨project, analyzeProject_ok.mpr ⟨report, hpass⟩⟩

/-- One document is taken over and one parsed, and then neither of them is; the files have the same lines. -/
theorem Analyzer.lines_parsed_or_counted_unparsing :
    ∃ project project',
      (((Session.start Session.Example.new).run Session.Example.events).analyzer.analyzeProject
        (Manner.workspace {} Session.Example.after) {} "/p/A.csproj").result = .ok project ∧
      (Session.Example.new.analyzeProject { provider := .unparsing, disk := Session.Example.after } {}
        "/p/A.csproj").result = .ok project' ∧
      project'.files = project.files ∧ project'.statistics.totalLines = project.statistics.totalLines := by
  have hremembering := Session.Remembering.run (a := Session.Example.new) rfl Session.Example.byWorkspace
  have hpath : Session.Example.after.canonical "/p/A.csproj" = .ok "/p/A.csproj" := by decide +kernel
  have hroot : Path.parent? "/p/A.csproj" = some "/p" := by decide +kernel
  have htext : Session.Example.after.readText "/p/A.csproj" = .ok "<Project />" := by decide +kernel
  obtain ⟨project, hok⟩ := Session.Example.analyzeProject_ok
  have hdisk := Session.Example.disk_run
  obtain ⟨s, hs⟩ : ∃ s, (Session.start Session.Example.new).run Session.Example.events = s := ⟨_, rfl⟩
  rw [hs] at hok hdisk hremembering ⊢
  generalize Session.Example.after = after at hdisk hok hpath htext
  subst hdisk
  have hup := hremembering.upToDate (m := {}) (Session.Example.timesTell hs) rfl
  obtain ⟨project', hok'⟩ := Session.Example.new.analyzeProject_unparsing hpath hroot htext
  obtain ⟨-, hlines⟩ := lines_parsed_or_counted
  obtain ⟨-, hsame⟩ := hlines s.analyzer _ {} _ project Provider.workspace_parsesText hup hok
  have hboth := hsame Session.Example.new { provider := .unparsing, disk := s.disk } {} project' rfl rfl
    Provider.unparsing_parsesText (upToDate_of_new rfl _ _) hok'
  exact ⟨project, project', hok, hok', hboth⟩

end SolutionAtlas
