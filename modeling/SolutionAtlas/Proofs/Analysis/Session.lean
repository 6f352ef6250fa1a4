-- SUMMARY: Sessions: one analyzer called again and again while files change.
import Mathlib
import SolutionAtlas.Analysis.Sweep
import SolutionAtlas.Proofs.Analysis.Document
import SolutionAtlas.Proofs.Analysis.Pass
import SolutionAtlas.Proofs.Disk.Folders

/-!
# Sessions

A session begins with an empty disk and a new analyzer. Then files are written and taken away, and
projects and solutions are analyzed: each call in its own manner, which says who provides the
documents, in which order those of a wave are done and when the caller gives up.
-/

namespace SolutionAtlas

/-- A change of the files. -/
inductive FileEdit where
  | write (now : Nat) (path : String) (data : FileData)
  | makeFolder (now : Nat) (path : String)
  | remove (path : String)

namespace FileEdit

def attempt (d : Disk) : FileEdit → Except DiskError Disk
  | .write now path data => d.write now path data
  | .makeFolder now path => d.makeFolder now path
  | .remove path => d.remove path

/-- The disk after a change; what cannot be done is not done. -/
def on (d : Disk) (change : FileEdit) : Disk :=
  (change.attempt d).toOption.getD d

/-- The disk after changes that are made one after the other. -/
def allOn (d : Disk) (changes : List FileEdit) : Disk :=
  changes.foldl on d

theorem on_eq_of_ok {d d' : Disk} {change : FileEdit} (h : change.attempt d = .ok d') : change.on d = d' := by
  rw [on, h]
  rfl

end FileEdit

/-- How a call is made. -/
structure Manner where
  provider : Provider := .workspace
  schedule : Schedule := .inTurn
  /-- The moments at which the caller gives up. -/
  givesUp : Moment → Bool := fun _ => false
  /-- The call as it begins; its caller may have given up already. -/
  call : Call := {}

def Manner.workspace (m : Manner) (d : Disk) : Workspace :=
  { provider := m.provider, disk := d, schedule := m.schedule, givesUp := m.givesUp }

inductive Event where
  | edit (change : FileEdit)
  | analyzeProject (manner : Manner) (manifest : String)
  | analyzeSolution (manner : Manner) (path : String)

namespace Event

/-- All calls are for projects, and made in a certain way. -/
def ProjectsOnly (P : Manner → String → Prop) : Event → Prop
  | .edit _ => True
  | .analyzeProject manner manifest => P manner manifest
  | .analyzeSolution _ _ => False

end Event

/-- The files as a call for a project finds them. -/
structure Look where
  disk : Disk
  manifest : String

structure Session where
  disk : Disk := {}
  analyzer : Analyzer
  /-- What the calls for projects have found, except those given up before they began. -/
  looks : List Look := []

namespace Session

def start (a : Analyzer) : Session :=
  { analyzer := a }

def step (s : Session) : Event → Session
  | .edit change => { s with disk := change.on s.disk }
  | .analyzeProject m manifest =>
    { s with
      analyzer := (s.analyzer.analyzeProject (m.workspace s.disk) m.call manifest).analyzer
      looks := if m.call.cancelled then s.looks else s.looks ++ [⟨s.disk, manifest⟩] }
  | .analyzeSolution m path =>
    { s with analyzer := (s.analyzer.analyzeSolution (m.workspace s.disk) m.call path).analyzer }

def run (s : Session) (events : List Event) : Session :=
  events.foldl step s

/-- What every event that satisfies `P` keeps holds after every run of such events. -/
theorem run_induction {I : Session → Prop} {P : Event → Prop}
    (hstep : ∀ s e, P e → I s → I (s.step e)) {s : Session} (hs : I s) {events : List Event}
    (hevents : ∀ e ∈ events, P e) : I (s.run events) := by
  unfold run
  induction events generalizing s with
  | nil => exact hs
  | cons e events ih =>
    exact ih (hstep s e (hevents e List.mem_cons_self) hs) fun f hf =>
      hevents f (List.mem_cons_of_mem _ hf)

end Session

/-! ## Files -/

theorem Disk.FilesNamed.edit {d : Disk} (h : d.FilesNamed) (change : FileEdit) :
    (change.on d).FilesNamed := by
  unfold FileEdit.on
  cases hd : change.attempt d with
  | error e => exact h
  | ok d' =>
    cases change with
    | write now path data => exact h.write hd
    | makeFolder now path => exact h.makeFolder hd
    | remove path => exact h.remove hd

theorem Disk.FoldersHold.edit {d : Disk} (h : d.FoldersHold) (change : FileEdit) :
    (change.on d).FoldersHold := by
  unfold FileEdit.on
  cases hd : change.attempt d with
  | error e => exact h
  | ok d' =>
    cases change with
    | write now path data => exact h.write hd
    | makeFolder now path => exact h.makeFolder hd
    | remove path => exact h.remove hd

/-- Files that are named and lie in folders do so after all changes. -/
theorem FileEdit.allOn_wellFormed {d : Disk} (h : d.FilesNamed ∧ d.FoldersHold) (changes : List FileEdit) :
    (allOn d changes).FilesNamed ∧ (allOn d changes).FoldersHold := by
  unfold allOn
  induction changes generalizing d with
  | nil => exact h
  | cons change changes ih => exact ih ⟨h.1.edit change, h.2.edit change⟩

/-! ## Calls for projects -/

/-- A caller that never gives up does not give up at a document. -/
theorem Workspace.not_givesUpAt {w : Workspace} (hw : w.provider = .workspace)
    (hgoes : ∀ moment, w.givesUp moment = false) (options : ExtractOptions) (j : DocumentJob) :
    ¬w.GivesUpAt options j := by
  rintro (hbefore | hwhile)
  · rw [hgoes] at hbefore
    cases hbefore
  · rw [givesUp_analyzeDocument hw] at hwhile
    cases hwhile

namespace Analyzer

/-- A new analyzer has the settings it is given and remembers nothing. -/
theorem ofConfig_ok {config : AnalyzerConfig} {a : Analyzer} (h : ofConfig config = .ok a) :
    a.config = config ∧ ExcludeFilter.ofPatterns config.excludePatterns = .ok a.exclude ∧
      a.documents = [] ∧ a.index = .empty := by
  unfold ofConfig at h
  cases hexclude : ExcludeFilter.ofPatterns config.excludePatterns with
  | error e =>
    rw [hexclude] at h
    cases h
  | ok exclude =>
    rw [hexclude] at h
    cases h
    exact ⟨rfl, rfl, rfl, rfl⟩

theorem analyzer_analyzeProject (a : Analyzer) (w : Workspace) (call : Call) (manifest : String) :
    ∃ report, (a.analyzeProject w call manifest).analyzer =
      { (a.pass w call manifest).analyzer with lastReport := report } := by
  unfold analyzeProject
  dsimp only
  split
  · exact ⟨_, rfl⟩
  · exact ⟨_, rfl⟩

theorem analyzeProject_ok {a : Analyzer} {w : Workspace} {call : Call} {manifest : String}
    {project : Project} :
    (a.analyzeProject w call manifest).result = .ok project ↔
      ∃ report, (a.pass w call manifest).result = .ok (project, report) := by
  unfold analyzeProject
  dsimp only
  split
  · rename_i p report hpass
    rw [hpass]
    constructor
    · intro h
      cases h
      exact ⟨report, rfl⟩
    · rintro ⟨r, h⟩
      cases h
      rfl
  · rename_i e hpass
    rw [hpass]
    constructor
    · intro h
      cases h
    · rintro ⟨r, h⟩
      cases h

/-- A call succeeds when the manifest can be read and its caller does not give up. -/
theorem analyzeProject_succeeds (a : Analyzer) {w : Workspace} (hw : w.provider = .workspace)
    (hgoes : ∀ moment, w.givesUp moment = false) {call : Call} (hcall : call.cancelled = false)
    {manifest path root text : String} (hpath : w.disk.canonical manifest = .ok path)
    (hroot : Path.parent? path = some root) (htext : w.disk.readText path = .ok text) :
    ∃ project, (a.analyzeProject w call manifest).result = .ok project := by
  obtain ⟨source, hsource⟩ := Provider.loadFromDisk_succeeds htext hroot
  rw [← Provider.loadProject_workspace, ← hw] at hsource
  have hjobs := Workspace.not_givesUpAt hw hgoes a.options
  obtain ⟨⟨project, report⟩, hpass⟩ := a.pass_ok hcall hjobs hpath hsource hroot
  exact ⟨project, analyzeProject_ok.mpr ⟨report, hpass⟩⟩

/-- A pass changes neither settings nor filters. -/
theorem config_analyzeSource (a : Analyzer) (w : Workspace) (call : Call) (project directory : String)
    (source : ProjectSource) :
    (a.analyzeSource w call project directory source).analyzer.config = a.config ∧
      (a.analyzeSource w call project directory source).analyzer.exclude = a.exclude := by
  rcases analyzeSource_cases a w call project directory source with
    ⟨_, -, -, h, -⟩ | ⟨_, _, -, -, h⟩
  · rw [h]
    exact ⟨rfl, rfl⟩
  · rw [h]
    exact ⟨rfl, rfl⟩

theorem config_pass (a : Analyzer) (w : Workspace) (call : Call) (manifest : String) :
    (a.pass w call manifest).analyzer.config = a.config ∧
      (a.pass w call manifest).analyzer.exclude = a.exclude := by
  rcases pass_cases a w call manifest with ⟨e, h⟩ | ⟨project, directory, source, -, -, -, -, h⟩
  · rw [h]
    exact ⟨rfl, rfl⟩
  · rw [h]
    exact config_analyzeSource a w call project directory source

end Analyzer

/-- The provider that knows the disk, with the outline of a text at hand: items are collected by a
recursion that does not compute. -/
def Provider.knowing (text : String) (outline : CSharp.Outline) : Provider :=
  { Provider.workspace with
    parseDocument := fun _ t => ⟨.ok (if t = text then outline else .ofSource t), false⟩ }

theorem Provider.knowing_eq {text : String} {outline : CSharp.Outline}
    (h : CSharp.Outline.ofSource text = outline) : knowing text outline = .workspace := by
  have hparse (t : String) : (if t = text then outline else CSharp.Outline.ofSource t) = .ofSource t := by
    split
    · rename_i ht
      rw [ht, h]
    · rfl
  simp only [knowing, workspace, hparse]

/-- A test that a result passes tells that there is a result. -/
theorem Except.exists_ok_of_any {ε α : Type} {x : Except ε α} {test : α → Bool}
    (h : x.toOption.any test = true) : ∃ a, x = .ok a ∧ test a = true := by
  cases x with
  | error e => cases h
  | ok a => exact ⟨a, rfl, h⟩

/-! ## A session of two calls -/

namespace Session.Example

def new : Analyzer :=
  { config := {}, exclude := {} }

/-- The files of a project with one document. -/
def before : Disk :=
  (FileEdit.write 1 "/p/K.cs" ⟨"class K { }".toUTF8, 1⟩).on
    ((FileEdit.write 1 "/p/A.csproj" ⟨"<Project />".toUTF8, 1⟩).on {})

/-- The files with another document. -/
def after : Disk :=
  (FileEdit.write 2 "/p/L.cs" ⟨"class L { }".toUTF8, 2⟩).on before

/-- The project is analyzed before the second document is written, and after it by a caller who has
given up already. -/
def events : List Event :=
  [.edit (.write 1 "/p/A.csproj" ⟨"<Project />".toUTF8, 1⟩),
    .edit (.write 1 "/p/K.cs" ⟨"class K { }".toUTF8, 1⟩),
    .analyzeProject {} "/p/A.csproj",
    .edit (.write 2 "/p/L.cs" ⟨"class L { }".toUTF8, 2⟩),
    .analyzeProject { call := { cancelled := true } } "/p/A.csproj"]

theorem disk_run : ((start new).run events).disk = after := by
  simp only [run, events, List.foldl, step, start, after, before]

theorem looks_run : ((start new).run events).looks = [⟨before, "/p/A.csproj"⟩] := by
  simp only [run, events, List.foldl, step, start, before]
  rfl

/-- Another call succeeds. -/
theorem analyzeProject_ok : ∃ project,
    (((start new).run events).analyzer.analyzeProject (Manner.workspace {} after) {}
      "/p/A.csproj").result = .ok project := by
  have hpath : after.canonical "/p/A.csproj" = .ok "/p/A.csproj" := by decide +kernel
  have htext : after.readText "/p/A.csproj" = .ok "<Project />" := by decide +kernel
  have hroot : Path.parent? "/p/A.csproj" = some "/p" := by decide +kernel
  have hcall : ({} : Call).cancelled = false := rfl
  generalize after = d at hpath htext
  exact Analyzer.analyzeProject_succeeds _ rfl (fun _ => rfl) hcall hpath hroot htext

end Session.Example

end SolutionAtlas
