-- SUMMARY: What an incremental analysis leaves in the index under the keys of members.
import Mathlib
import SolutionAtlas.Proofs.Analysis.FromScratch
import SolutionAtlas.Proofs.Analysis.IndexFollows

/-!
# Entries of members

A type that is declared several times is set anew by every pass, but the entry of a member is only
added, and stays until a document it is located in changes. So the index of an analyzer that has seen
a project grow agrees with that of a new analyzer on all types, and on members up to the choice among
several declarations of one key: a new analyzer takes the first that is listed, the other the first it
has come across.
-/

namespace SolutionAtlas

open CSharp (IsTypeId)

/-! ## Adding and setting -/

/-- Under a key for which nothing is set anew, entries are only added. -/
theorem SymbolIndex.get?_putEach_added {x : SymbolIndex} {es : List (Bool × IndexEntry)} {key : String}
    (h : ∀ e ∈ es, e.2.key = key → e.1 = false) :
    (x.putEach es).get? key = (x.get? key).or ((es.map (·.2)).find? (·.key == key)) := by
  unfold putEach
  induction es generalizing x with
  | nil => simp
  | cons e es ih =>
    obtain ⟨hhead, htail⟩ := List.forall_mem_cons.mp h
    rw [List.foldl_cons, ih htail, get?_put, List.map_cons, List.find?_cons]
    by_cases hkey : e.2.key = key
    · rw [if_pos hkey, hhead hkey, beq_iff_eq.mpr hkey]
      cases x.get? key <;> rfl
    · rw [if_neg hkey, beq_eq_false_iff_ne.mpr hkey]

/-! ## One pass -/

/-- What a call has to do about the documents of its project; nothing when there is no project. -/
def Analyzer.planOf (a : Analyzer) (l : Look) : Plan :=
  match l.disk.canonical l.manifest with
  | .error _ => .ofStamped [] {}
  | .ok project =>
    match Provider.loadFromDisk l.disk project, Path.parent? project with
    | .ok source, some directory =>
      a.planFor l.disk project (source.rootDirs.head?.getD directory) source
    | _, _ => .ofStamped [] {}

/-- The entries that documents declare, one document after the other. -/
def Look.entries (l : Look) (options : ExtractOptions) (project : String) (jobs : List DocumentJob) :
    List IndexEntry :=
  jobs.flatMap (l.workspace.entriesFor options project)

/-- The entry that a call leaves under the key of a member: the one held before, unless a document that
it is located in is out of date; or else that of the first changed document with the key; or else that
of the types of the project. -/
def Analyzer.memberAfter? (a : Analyzer) (l : Look) (project : Project) (key : String) :
    Option IndexEntry :=
  let plan := a.planOf l
  ((a.index.get? key).filter fun e => !plan.stale.any e.symbol.isDeclaredIn).or
    (((l.entries a.options project.projectFilePath plan.changed).find? (·.key == key)).or
      ((entriesOf project.projectFilePath project.declared).find? (·.key == key)))

namespace Analyzer

variable {a : Analyzer} {w : Workspace} {l : Look} {project root directory : String}
  {source : ProjectSource}

theorem planOf_eq (hproject : l.disk.canonical l.manifest = .ok project)
    (hsource : Provider.loadFromDisk l.disk project = .ok source)
    (hdirectory : Path.parent? project = some directory) :
    a.planOf l = a.planFor l.disk project (source.rootDirs.head?.getD directory) source := by
  simp only [planOf, hproject, hsource, hdirectory]

/-- Which documents are listed depends on the filters alone. -/
theorem stamped_planOf {b : Analyzer} (h : a.exclude = b.exclude) (l : Look) :
    (a.planOf l).stamped = (b.planOf l).stamped := by
  unfold planOf
  split
  · rfl
  · split
    · rw [stamped_planFor, stamped_planFor, h]
    · rfl

/-- A new analyzer takes over nothing. -/
theorem changed_planOf_new (h : a.documents = []) (l : Look) :
    (a.planOf l).changed = (a.planOf l).stamped.jobs := by
  unfold planOf
  split
  · rfl
  · split
    · rw [planFor, documentsOf_new h]
      exact List.filter_eq_self.mpr fun _ _ => rfl
    · rfl

/-- The types of a project are set or added, its members are only added. -/
theorem get?_assemble_member (hindex : a.index.Consistent) {kept : Table AnalyzedDocument}
    (hkept : RemembersSoundly kept) (d : Disk) (manifest : Manifest) (stale : List String)
    (order : List DocumentJob) {key : String} (hkey : ¬IsTypeId key) :
    let built := a.assemble d source project root manifest kept
      (w.indexJobs a.options project (dropFiles a.index stale) order)
    built.2.index.get? key =
      ((a.index.get? key).filter fun e => !stale.any e.symbol.isDeclaredIn).or
        (((order.flatMap (w.entriesFor a.options project)).find? (·.key == key)).or
          ((entriesOf project built.1.declared).find? (·.key == key))) := by
  intro built
  obtain ⟨ps, hmerges, hperm⟩ := merges_mergedOf kept
  have hadded : ∀ e ∈ syncEntries project (mergedOf kept), e.2.key = key → e.1 = false := by
    intro e he hself
    obtain ⟨p, hp, rfl | ⟨member, -, rfl⟩⟩ := mem_syncEntries.mp he
    · have hid : IsTypeId key := hself ▸ hkept.isTypeId_of_merged hmerges hperm hp
      exact absurd hid hkey
    · rfl
  rw [index_assemble, SymbolIndex.get?_putEach_added hadded, syncEntries_snd, declared_assemble,
    Workspace.indexJobs_eq, SymbolIndex.get?_addEach, get?_dropFiles hindex, Option.or_assoc]

/-- A project has the path that its call has looked up. -/
theorem canonical_of_analyzeProject {manifest : String} {call : Call} {found : Project}
    (hok : (a.analyzeProject w call manifest).result = .ok found) :
    w.disk.canonical manifest = .ok found.projectFilePath := by
  obtain ⟨report, hpass⟩ := analyzeProject_ok.mp hok
  obtain ⟨_, _, _, _, -, hproject, -, -, -, hfound, -⟩ := pass_succeeds hpass
  dsimp only at hfound
  rw [hproject, hfound, projectFilePath_assemble]

/-- The documents that a project has after a call for it. -/
def keptFor (a : Analyzer) (w : Workspace) (manifest project : String) : Table AnalyzedDocument :=
  w.kept a.options (a.documentsOf project) (a.planOf ⟨w.disk, manifest⟩).stamped.jobs

/-- What a call that finds a project has worked on, and what it leaves. -/
structure Leaves (a : Analyzer) (w : Workspace) (manifest : String) (found : Project) (after : Analyzer) :
    Prop where
  located : ∃ directory source, w.disk.canonical manifest = .ok found.projectFilePath ∧
    Provider.loadFromDisk w.disk found.projectFilePath = .ok source ∧
    Path.parent? found.projectFilePath = some directory
  plain : (a.planOf ⟨w.disk, manifest⟩).stamped.Plain
  sound : RemembersSoundly (a.keptFor w manifest found.projectFilePath)
  declared : found.declared = (mergedOf (a.keptFor w manifest found.projectFilePath)).types
  index : IndexMatches found.projectFilePath (a.keptFor w manifest found.projectFilePath) after.index
  follows : after.index.Follows found (a.keptFor w manifest found.projectFilePath).values
  members : w.schedule = .inTurn → ∀ key, ¬IsTypeId key →
    after.index.get? key = a.memberAfter? ⟨w.disk, manifest⟩ found key

theorem analyzeProject_leaves {manifest : String} (hw : w.provider = .workspace)
    (hd : w.disk.FilesNamed) (h : a.InStep (Place.ofPath manifest).path) {call : Call} {found : Project}
    (hok : (a.analyzeProject w call manifest).result = .ok found) :
    a.Leaves w manifest found (a.analyzeProject w call manifest).analyzer := by
  obtain ⟨report, hpass⟩ := analyzeProject_ok.mp hok
  obtain ⟨_, hafter⟩ := a.analyzer_analyzeProject w call manifest
  obtain ⟨project, directory, source, order, -, hproject, hsource, hdirectory, horder, hfound, hanalyzer⟩ :=
    pass_succeeds hpass
  have hlawful : w.provider.Lawful := hw ▸ Provider.workspace_lawful
  obtain rfl := Disk.eq_path_of_canonical hproject
  have hs : (a.planFor w.disk _ (source.rootDirs.head?.getD directory) source).stamped.Plain :=
    plain_planFor hlawful hd hproject hsource
  have hparses := hlawful.parsesSoundly a.options
  obtain ⟨hstep, hfollows⟩ := h.assemble hparses hs horder.subset
    (Manifest.read source.manifestText directory)
  have hkept := h.remembers.kept hparses hs
  rw [hw, Provider.loadProject_workspace] at hsource
  have hplan : a.planOf ⟨w.disk, manifest⟩ = _ := planOf_eq hproject hsource hdirectory
  dsimp only at hfound
  have hfile : found.projectFilePath = (Place.ofPath manifest).path := by
    rw [hfound, projectFilePath_assemble]
  rw [hafter, hanalyzer]
  constructor
  · exact ⟨directory, source, hfile ▸ hproject, hfile ▸ hsource, hfile ▸ hdirectory⟩
  · rw [hplan]
    exact hs
  · rw [keptFor, hplan, hfile]
    exact hkept
  · rw [keptFor, hplan, hfile, hfound, declared_assemble]
  · have hindex := hstep.index
    rw [documentsOf_assemble, if_pos rfl] at hindex
    rw [keptFor, hplan, hfile]
    exact hindex
  · rw [keptFor, hplan, hfile, hfound]
    exact hfollows
  · intro hturn key hkey
    obtain rfl := horder.inTurn hturn
    have hentries (jobs : List DocumentJob) (path : String) :
        jobs.flatMap (w.entriesFor a.options path) =
          Look.entries ⟨w.disk, manifest⟩ a.options path jobs := by
      refine List.flatMap_congr fun j _ => ?_
      have hsame : w.analyzeDocument a.options j =
          (Look.workspace ⟨w.disk, manifest⟩).analyzeDocument a.options j :=
        Workspace.analyzeDocument_congr hw rfl
      rw [Workspace.entriesFor, Workspace.entriesFor, hsame]
    rw [memberAfter?, hplan, hfound, projectFilePath_assemble, ← hentries]
    exact get?_assemble_member h.index.consistent hkept _ _ _ _ hkey

end Analyzer

/-! ## Documents as they are listed -/

section Listed

variable {l : Look} {options : ExtractOptions} {project : String} {stamped : Stamped}

/-- What the documents of a project declare is listed. -/
theorem Look.mem_entries (hs : stamped.Plain) {file : String} {document : AnalyzedDocument}
    (hdocument : (l.workspace.kept options [] stamped.jobs).get? file = some document) {e : IndexEntry}
    (he : e ∈ entriesOf project document.declared) : e ∈ l.entries options project stamped.jobs := by
  obtain ⟨j, hj, -, hresult⟩ := hs.get?_kept.mp hdocument
  obtain ⟨-, houtcome⟩ : reusable? [] j = none ∧
      (l.workspace.analyzeDocument options j).outcome = .ok document := by
    refine (Workspace.resultFor?_eq_some.mp hresult).resolve_left fun hreused => ?_
    cases hreused
  exact List.mem_flatMap.mpr ⟨j, hj, Workspace.mem_entriesFor.mpr ⟨document, houtcome, he⟩⟩

/-- Nothing under the key of a member is in the types of a project only. -/
theorem Look.find?_entries_or (hs : stamped.Plain) (key : String) :
    ((l.entries options project stamped.jobs).find? (·.key == key)).or
        ((entriesOf project (Analyzer.mergedOf (l.workspace.kept options [] stamped.jobs)).types).find?
          (·.key == key)) =
      (l.entries options project stamped.jobs).find? (·.key == key) := by
  cases hlisted : (l.entries options project stamped.jobs).find? (·.key == key) with
  | some e => rfl
  | none =>
    rw [Option.none_or, List.find?_eq_none]
    intro e he hkey
    have hdeclares : DeclaresKey (Analyzer.mergedOf (l.workspace.kept options [] stamped.jobs)).types key :=
      (declaresKey_iff project).mpr ⟨e, he, beq_iff_eq.mp hkey⟩
    obtain ⟨p, hp, hpkey⟩ := Analyzer.declaresKey_mergedOf.mp hdeclares
    obtain ⟨document, hdocument, hdeclared⟩ := mem_declaredBy.mp hp
    obtain ⟨file, hfile⟩ := (Workspace.kept_ascending _).mem_values_iff.mp hdocument
    obtain ⟨e', he', hkey'⟩ := (declaresKey_iff project).mp ⟨p, hdeclared, hpkey⟩
    exact List.find?_eq_none.mp hlisted e' (Look.mem_entries hs hfile he') (beq_iff_eq.mpr hkey')

/-- An entry that fits the documents says what a listed one says. -/
theorem IndexEntry.Fits.exists_listed (hs : stamped.Plain) {e : IndexEntry}
    (h : e.Fits project (l.workspace.kept options [] stamped.jobs)) (hid : ¬IsTypeId e.key) :
    ∃ e' ∈ l.entries options project stamped.jobs, e.Agrees e' := by
  obtain ⟨file, document, p, m, hdocument, hp, hm, hagrees⟩ := h.members hid
  exact ⟨_, Look.mem_entries hs hdocument (mem_entriesOf.mpr ⟨p, hp, .inr ⟨m, hm, rfl⟩⟩), hagrees⟩

end Listed

/-- Two indexes of one project have the same types under the same keys. -/
theorem SymbolIndex.Follows.agree {x y : SymbolIndex} {project : Project}
    {documents : Table AnalyzedDocument} (hsound : RemembersSoundly documents)
    (hx : x.Follows project documents.values) (hy : y.Follows project documents.values) :
    (∀ key, x.contains key = y.contains key) ∧ ∀ key, IsTypeId key → x.get? key = y.get? key := by
  have hkeys (key : String) : x.contains key = y.contains key :=
    Bool.eq_iff_iff.mpr ((hx.keys key).trans (hy.keys key).symm)
  refine ⟨hkeys, fun key hid => ?_⟩
  by_cases hdeclares : DeclaresKey project.declared key
  · obtain ⟨p, hp, rfl | hmember⟩ := hdeclares
    · rw [hx.types p hp, hy.types p hp]
    · -- The key would be that of a member of one of the parts.
      obtain ⟨q, hq, hin⟩ := ((hx.parts p hp).memberKeys key).mp hmember
      obtain ⟨document, hdocument, hdeclared⟩ := mem_declaredBy.mp (List.mem_of_mem_filter hq)
      obtain ⟨file, hfile⟩ := hsound.ascending.mem_values_iff.mp hdocument
      obtain ⟨m, hm, rfl⟩ := List.mem_map.mp hin
      exact absurd hid ((hsound.sound _ _ hfile).memberId q hdeclared m hm)
  · have hx' : ¬∃ e, x.get? key = some e := fun h =>
      hdeclares ((hx.keys key).mp (contains_iff.mpr h))
    have hy' : ¬∃ e, y.get? key = some e := fun h =>
      hdeclares ((hy.keys key).mp (contains_iff.mpr h))
    rw [Option.eq_none_iff_forall_ne_some.mpr fun e he => hx' ⟨e, he⟩,
      Option.eq_none_iff_forall_ne_some.mpr fun e he => hy' ⟨e, he⟩]

/-- A new analyzer has the first listed declaration of every member. -/
theorem Analyzer.get?_new_member {a : Analyzer} (hdocuments : a.documents = []) (hindex : a.index = .empty)
    {l : Look} (hd : l.disk.FilesNamed) {found : Project}
    (hok : (a.analyzeProject l.workspace {} l.manifest).result = .ok found) {key : String}
    (hkey : ¬IsTypeId key) :
    (a.analyzeProject l.workspace {} l.manifest).analyzer.index.get? key =
      (l.entries a.options found.projectFilePath (a.planOf l).stamped.jobs).find? (·.key == key) := by
  have hleaves := analyzeProject_leaves (w := l.workspace) rfl hd (.of_new hdocuments hindex) hok
  have hempty : a.index.get? key = none := by
    rw [hindex]
    rfl
  have hdeclared : found.declared =
      (mergedOf (l.workspace.kept a.options [] (a.planOf l).stamped.jobs)).types := by
    rw [hleaves.declared, keptFor, documentsOf_new hdocuments]
    rfl
  have hlook : a.memberAfter? ⟨l.workspace.disk, l.manifest⟩ found key = a.memberAfter? l found key := rfl
  rw [hleaves.members rfl key hkey, hlook, memberAfter?, hempty, Option.filter_none, Option.none_or,
    changed_planOf_new hdocuments, hdeclared]
  exact Look.find?_entries_or hleaves.plain key

/-- What two calls leave that keep the same documents of a project, when the second has the first
listed declaration of every member. -/
theorem Analyzer.Leaves.against {a b after scratch : Analyzer} {w : Workspace} {l : Look} {found : Project}
    {options : ExtractOptions} {stamped : Stamped} (h : a.Leaves w l.manifest found after)
    (h' : b.Leaves l.workspace l.manifest found scratch) (hs : stamped.Plain)
    (hkept : a.keptFor w l.manifest found.projectFilePath = l.workspace.kept options [] stamped.jobs)
    (hkept' : b.keptFor l.workspace l.manifest found.projectFilePath =
      l.workspace.kept options [] stamped.jobs)
    {listed : List IndexEntry} (hlisted : listed = l.entries options found.projectFilePath stamped.jobs)
    (hfirst : ∀ key, ¬IsTypeId key → scratch.index.get? key = listed.find? (·.key == key)) :
    (∀ key, after.index.contains key = scratch.index.contains key) ∧
      (∀ key, IsTypeId key → after.index.get? key = scratch.index.get? key) ∧
      (∀ key, ¬IsTypeId key → ∀ e, after.index.get? key = some e → ∃ e' ∈ listed, e.Agrees e') ∧
      ∀ key e e', after.index.get? key = some e → scratch.index.get? key = some e' →
        (∀ e₁ ∈ listed, ∀ e₂ ∈ listed, e₁.key = key → e₂.key = key → e₁ = e₂) → e.Agrees e' := by
  have hfollows := h.follows
  have hfollows' := h'.follows
  have hindex := h.index
  have hsound := h.sound
  rw [hkept] at hfollows hindex hsound
  rw [hkept'] at hfollows'
  obtain ⟨hkeys, htypes⟩ := hfollows.agree hsound hfollows'
  have hdeclared (key : String) (hkey : ¬IsTypeId key) (e : IndexEntry)
      (he : after.index.get? key = some e) : e.key = key ∧ ∃ e' ∈ listed, e.Agrees e' := by
    have hself := hindex.consistent.keyed key e he
    rw [hlisted]
    exact ⟨hself, (hindex.fits key e he).exists_listed hs (hself ▸ hkey)⟩
  refine ⟨hkeys, htypes, fun key hkey e he => (hdeclared key hkey e he).2, fun key e e' he he' honce => ?_⟩
  by_cases hkey : IsTypeId key
  · rw [htypes key hkey, he'] at he
    cases he
    exact ⟨rfl, rfl, rfl⟩
  · obtain ⟨hself, first, hin, hagrees⟩ := hdeclared key hkey e he
    rw [hfirst key hkey] at he'
    have hfound := List.find?_some he'
    rw [beq_iff_eq] at hfound
    rw [← honce first hin e' (List.mem_of_find?_eq_some he') (hagrees.key.symm.trans hself) hfound]
    exact hagrees

/-! ## Sessions -/

/-- The analyzer of a session keeps of a project what a new one keeps. -/
theorem Session.Remembering.keptFor_eq {a new : Analyzer} {s : Session} (h : s.Remembering a)
    (hconfig : new.options = a.options) (hexclude : new.exclude = a.exclude) (hempty : new.documents = [])
    {m : Manner} (hm : m.provider = .workspace) {manifest project : String}
    (htimes : TimesTell (s.looks ++ [⟨s.disk, manifest⟩]))
    (hlocated : ∃ directory source, s.disk.canonical manifest = .ok project ∧
      Provider.loadFromDisk s.disk project = .ok source ∧ Path.parent? project = some directory) :
    s.analyzer.keptFor (m.workspace s.disk) manifest project =
      (Look.workspace ⟨s.disk, manifest⟩).kept a.options []
        (s.analyzer.planOf ⟨s.disk, manifest⟩).stamped.jobs := by
  obtain ⟨directory, source, hpath, hsource, hdirectory⟩ := hlocated
  have hplan : s.analyzer.planOf ⟨s.disk, manifest⟩ =
      s.analyzer.planFor s.disk project (source.rootDirs.head?.getD directory) source :=
    Analyzer.planOf_eq hpath hsource hdirectory
  have hkept := h.kept_eq hconfig hexclude hempty hm htimes .inTurn hpath hsource hdirectory
  dsimp only at hkept
  have hstamped : (new.planFor s.disk project (source.rootDirs.head?.getD directory) source).stamped =
      (s.analyzer.planFor s.disk project (source.rootDirs.head?.getD directory) source).stamped := by
    rw [Analyzer.stamped_planFor, Analyzer.stamped_planFor, h.exclude, hexclude]
  rw [Analyzer.documentsOf_new hempty, hconfig, hstamped, ← hplan] at hkept
  exact hkept

/-- After any changes of the files and calls for one project that have succeeded, failed or been given
up, a call that succeeds and does one document after the other leaves the index that a new analyzer
builds of the same files, but for the members that are declared several times: of these the new analyzer
has the first declaration that is listed, and the other what it held before, or else the first of a
changed document, or else that of the merged types. -/
theorem Session.index_against_fromScratch {config : AnalyzerConfig} {concurrency : Nat}
    {a new : Analyzer} (ha : Analyzer.ofConfig config = .ok a)
    (hnew : Analyzer.ofConfig { config with maxConcurrency := concurrency } = .ok new)
    {manifest : String} {events : List Event}
    (hevents : ∀ e ∈ events, e.ByWorkspace ∧ e.ForProject manifest) {s : Session}
    (hs : (Session.start a).run events = s) {m : Manner} (hm : m.provider = .workspace)
    (hturn : m.schedule = .inTurn) (htimes : TimesTell (s.looks ++ [⟨s.disk, manifest⟩]))
    {project : Project}
    (hok : (s.analyzer.analyzeProject (m.workspace s.disk) m.call manifest).result = .ok project) :
    let look : Look := ⟨s.disk, manifest⟩
    let after := (s.analyzer.analyzeProject (m.workspace s.disk) m.call manifest).analyzer.index
    let scratch := new.analyzeProject look.workspace {} manifest
    let listed := look.entries a.options project.projectFilePath (s.analyzer.planOf look).stamped.jobs
    scratch.result = .ok project ∧
      (∀ key, after.contains key = scratch.analyzer.index.contains key) ∧
      (∀ key, IsTypeId key → after.get? key = scratch.analyzer.index.get? key) ∧
      (∀ key, ¬IsTypeId key → after.get? key = s.analyzer.memberAfter? look project key ∧
        scratch.analyzer.index.get? key = listed.find? (·.key == key) ∧
        ∀ e, after.get? key = some e → ∃ e' ∈ listed, e.Agrees e') ∧
      ∀ key e e', after.get? key = some e → scratch.analyzer.index.get? key = some e' →
        (∀ e₁ ∈ listed, ∀ e₂ ∈ listed, e₁.key = key → e₂.key = key → e₁ = e₂) → e.Agrees e' := by
  intro look after scratch listed
  obtain ⟨hconfig, hexclude, hdocuments, hindex⟩ := Analyzer.ofConfig_ok ha
  obtain ⟨hconfigNew, hexcludeNew, hdocumentsNew, hindexNew⟩ := Analyzer.ofConfig_ok hnew
  have h : s.Remembering a := hs ▸ Remembering.run hdocuments fun e he => (hevents e he).1
  have hin : s.InStep manifest := hs ▸ InStep.run hdocuments hindex fun e he => (hevents e he).2
  have hexcludes : new.exclude = a.exclude := Except.ok.inj (hexcludeNew.symm.trans hexclude)
  have hoptions : new.options = a.options := by rw [Analyzer.options, Analyzer.options, hconfig, hconfigNew]
  have hdepth : new.config.editorConfigSearchDepth = a.config.editorConfigSearchDepth := by
    rw [hconfig, hconfigNew]
  have hscratch : scratch.result = .ok project :=
    h.result_eq hoptions hexcludes hdocumentsNew hdepth hm htimes .inTurn hok
  have hleaves := Analyzer.analyzeProject_leaves (w := m.workspace s.disk) hm h.filesNamed hin.analyzer hok
  have hleavesNew := Analyzer.analyzeProject_leaves (w := look.workspace) rfl h.filesNamed
    (.of_new hdocumentsNew hindexNew) hscratch
  have hstamped : (new.planOf look).stamped = (s.analyzer.planOf look).stamped :=
    Analyzer.stamped_planOf (hexcludes.trans h.exclude.symm) look
  have hkept := h.keptFor_eq hoptions hexcludes hdocumentsNew hm htimes hleaves.located
  have hkeptNew : new.keptFor look.workspace manifest project.projectFilePath =
      look.workspace.kept a.options [] (s.analyzer.planOf look).stamped.jobs := by
    rw [Analyzer.keptFor, Analyzer.documentsOf_new hdocumentsNew, hoptions]
    exact congrArg (look.workspace.kept a.options [] ·.jobs) hstamped
  have hfirst (key : String) (hkey : ¬IsTypeId key) :
      scratch.analyzer.index.get? key = listed.find? (·.key == key) := by
    have hmember := Analyzer.get?_new_member hdocumentsNew hindexNew (l := look) h.filesNamed hscratch hkey
    rw [hoptions, hstamped] at hmember
    exact hmember
  obtain ⟨hkeys, htypes, hdeclared, honce⟩ :=
    hleaves.against (l := look) hleavesNew hleaves.plain hkept hkeptNew rfl hfirst
  refine ⟨hscratch, hkeys, htypes, fun key hkey => ⟨?_, hfirst key hkey, hdeclared key hkey⟩, honce⟩
  exact hleaves.members hturn key hkey

/-! ## A member that is declared twice -/

namespace Session.Grown

open CSharp

/-- A part of a type with a member. Two documents have this text. -/
def text : String := "partial class K { public partial void F(); }"

def outline : Outline where
  namespaces := [⟨globalNamespace,
    [⟨"T:K", "K", "K", .classType, .internalAccess, ["partial"], [], none, none, [], [], ⟨1, 1, 1, 45⟩,
      [⟨"M:K.F", "F", "K.F()", .method, .publicAccess, ["public", "partial"], [], none, none, some "void",
        [], ⟨1, 19, 1, 43⟩, false, false⟩]⟩]⟩]
  lineCount := 1

theorem ofSource_text : Outline.ofSource text = outline := by
  have htokens : tokens text =
      [⟨.word, [], "partial".toList, ⟨0, 0⟩, ⟨0, 7⟩⟩, ⟨.word, [' '], "class".toList, ⟨0, 8⟩, ⟨0, 13⟩⟩,
        ⟨.word, [' '], ['K'], ⟨0, 14⟩, ⟨0, 15⟩⟩, ⟨.symbol, [' '], ['\x7b'], ⟨0, 16⟩, ⟨0, 17⟩⟩,
        ⟨.word, [' '], "public".toList, ⟨0, 18⟩, ⟨0, 24⟩⟩,
        ⟨.word, [' '], "partial".toList, ⟨0, 25⟩, ⟨0, 32⟩⟩,
        ⟨.word, [' '], "void".toList, ⟨0, 33⟩, ⟨0, 37⟩⟩, ⟨.word, [' '], ['F'], ⟨0, 38⟩, ⟨0, 39⟩⟩,
        ⟨.symbol, [], ['('], ⟨0, 39⟩, ⟨0, 40⟩⟩, ⟨.symbol, [], [')'], ⟨0, 40⟩, ⟨0, 41⟩⟩,
        ⟨.symbol, [], [';'], ⟨0, 41⟩, ⟨0, 42⟩⟩, ⟨.symbol, [' '], ['\x7d'], ⟨0, 43⟩, ⟨0, 44⟩⟩] := by
    decide +kernel
  have hitems : Item.ofSource text =
      [.type ⟨.classForm, [], ["partial"], "K", [], [], [], ⟨1, 1, 1, 45⟩⟩
        [.member ⟨[], ["public", "partial"], .method "void" "F" [] [] none, ⟨1, 19, 1, 43⟩⟩]] := by
    rw [Item.ofSource, htokens]
    rfl
  have hlines : (Text.lines text).length = 1 := by decide +kernel
  have hheader : hasGeneratedHeader text = false := by decide +kernel
  rw [Outline.ofSource, hlines, hheader, hitems]
  simp only [Outline.ofItems, collectItems, collectType, collectNested]
  rfl

/-- The project as it is analyzed first. The manifest is hidden, so that a scan lists documents alone. -/
def one : Disk :=
  (FileEdit.write 1 "/p/B.cs" ⟨text.toUTF8, 1⟩).on
    ((FileEdit.write 1 "/p/.a.csproj" ⟨.empty, 1⟩).on {})

/-- The project with a second document, which is listed before the first. -/
def two : Disk :=
  (FileEdit.write 2 "/p/A.cs" ⟨text.toUTF8, 2⟩).on one

def events (p : Provider) : List Event :=
  [.edit (.write 1 "/p/.a.csproj" ⟨.empty, 1⟩),
    .edit (.write 1 "/p/B.cs" ⟨text.toUTF8, 1⟩),
    .analyzeProject { provider := p } "/p/.a.csproj",
    .edit (.write 2 "/p/A.cs" ⟨text.toUTF8, 2⟩)]

def session (p : Provider) : Session :=
  (start Example.new).run (events p)

theorem events_forProject :
    ∀ e ∈ events .workspace, e.ByWorkspace ∧ e.ForProject "/p/.a.csproj" := by
  simp [events, Event.ByWorkspace, Event.ForProject, Event.ProjectsOnly, Provider.workspace_lawful]

theorem disk_session : (session .workspace).disk = two := by
  simp only [session, run, events, List.foldl, step, start, two, one]

theorem looks_session : (session .workspace).looks = [⟨one, "/p/.a.csproj"⟩] := by
  simp only [session, run, events, List.foldl, step, start, one]
  rfl

theorem timesTell : TimesTell [⟨one, "/p/.a.csproj"⟩, ⟨two, "/p/.a.csproj"⟩] := by
  have hnamed : one.FilesNamed := by
    unfold one
    exact (Disk.filesNamed_empty.edit _).edit _
  have hbytes : ∀ e ∈ one.files, one.readBytes e.1.path = two.readBytes e.1.path := by
    decide +kernel
  exact .of_added hnamed hbytes (by simp)

/-- The manifest is an empty file. -/
theorem manifest_two : two.canonical "/p/.a.csproj" = .ok "/p/.a.csproj" ∧
    two.readText "/p/.a.csproj" = .ok "" ∧ Path.parent? "/p/.a.csproj" = some "/p" := by
  decide +kernel

theorem mergeSort_pair {α : Type} (le : α → α → Bool) (x y : α) :
    [x, y].mergeSort le = if le x y then [x, y] else [y, x] := by
  simp [List.mergeSort, List.MergeSort.Internal.splitInTwo, List.merge]

/-- A scan of the project lists the second document first. -/
theorem paths_two : Scan.paths two false "/p" = ["/p/A.cs", "/p/B.cs"] := by
  have hlocate : two.locate "/p" = .ok ["p"] := by decide +kernel
  have hfolder : (two.entryAt? ["p"]).any (!·.isFolder) = false := by decide +kernel
  have hfound : (Scan.shownFiles two (Scan.admits two false) ["p"]).map (·.drop ["p"].length) =
      [["B.cs"], ["A.cs"]] := by
    decide +kernel
  have hplaces : Scan.placesBelow Scan.shownFiles two false ["p"] = [["A.cs"], ["B.cs"]] := by
    rw [Scan.placesBelow, hfound, mergeSort_pair]
    decide +kernel
  rw [Scan.paths, Scan.pathsBy, hlocate]
  dsimp only
  split
  · rename_i hentry
    rw [hentry] at hfolder
    cases hfolder
  · rw [hplaces]
    decide +kernel

/-- The documents as a pass goes over them. -/
def jobs : List DocumentJob :=
  [⟨"/p/A.cs", "A.cs", 2⟩, ⟨"/p/B.cs", "B.cs", 1⟩]

theorem jobs_two : Stamped.ofPaths two {} "/p" ["/p/A.cs", "/p/B.cs"] = { jobs } := by
  have honce : ["/p/A.cs", "/p/B.cs"].foldr (fun p acc =>
      if acc.any (Path.tidy · == Path.tidy p) then acc else p :: acc) [] = ["/p/A.cs", "/p/B.cs"] := by
    decide +kernel
  have hsorted : Path.sorted ["/p/A.cs", "/p/B.cs"] = ["/p/A.cs", "/p/B.cs"] := by
    rw [Path.sorted, honce, mergeSort_pair]
    decide +kernel
  rw [Stamped.ofPaths, hsorted]
  decide +kernel

/-- Before the last call the index locates the member in the first document. -/
theorem held : ∃ e, (session .workspace).analyzer.index.get? "M:K.F" = some e ∧
    e.symbol.isDeclaredIn "/p/B.cs" = true ∧ e.symbol.isDeclaredIn "/p/A.cs" = false := by
  have hrun : ((session (.knowing text outline)).analyzer.index.get? "M:K.F").any (fun e =>
      e.symbol.isDeclaredIn "/p/B.cs" && !e.symbol.isDeclaredIn "/p/A.cs") = true := by
    decide +kernel
  rw [Provider.knowing_eq ofSource_text] at hrun
  obtain ⟨e, he, hin⟩ := (Option.any_eq_true _ _).mp hrun
  rw [Bool.and_eq_true, Bool.not_eq_true'] at hin
  exact ⟨e, he, hin⟩

/-- For the last call, the second document alone is out of date. -/
theorem plan_two : ((session .workspace).analyzer.planOf ⟨two, "/p/.a.csproj"⟩).stamped = { jobs } ∧
    ((session .workspace).analyzer.planOf ⟨two, "/p/.a.csproj"⟩).stale = ["/p/A.cs"] := by
  obtain ⟨hpath, htext, hparent⟩ := manifest_two
  have hparts : ["/p/A.cs", "/p/B.cs"].partition (Path.hasExtension · "cs") =
      (["/p/A.cs", "/p/B.cs"], []) := by
    decide +kernel
  have hsource : Provider.loadFromDisk two "/p/.a.csproj" =
      .ok ⟨Path.fileStem "/p/.a.csproj", "/p/.a.csproj", "", ["/p"], ["/p/A.cs", "/p/B.cs"], []⟩ := by
    have hpaths := paths_two
    rw [Scan.paths] at hpaths
    simp only [Provider.loadFromDisk, Provider.loadBy, htext, hparent, hpaths, hparts]
    rfl
  have hjobs := jobs_two
  have hexclude : (session .workspace).analyzer.exclude = {} :=
    (Remembering.run (a := Example.new) rfl fun e he => (events_forProject e he).1).exclude
  have hstale : (Plan.ofStamped ((session (.knowing text outline)).analyzer.documentsOf "/p/.a.csproj")
      { jobs }).stale = ["/p/A.cs"] := by
    decide +kernel
  rw [Provider.knowing_eq ofSource_text] at hstale
  generalize two = d at *
  generalize (session .workspace).analyzer = a at *
  have hplan (source : ProjectSource) (hdocuments : source.documents = ["/p/A.cs", "/p/B.cs"]) :
      a.planFor d "/p/.a.csproj" "/p" source = .ofStamped (a.documentsOf "/p/.a.csproj") { jobs } := by
    rw [Analyzer.planFor, hexclude, hdocuments, hjobs]
  have hroot : ["/p"].head?.getD "/p" = "/p" := rfl
  rw [Analyzer.planOf_eq (l := ⟨d, _⟩) hpath hsource hparent, hroot, hplan _ rfl]
  exact ⟨rfl, hstale⟩

/-- The first declaration of the member that is listed is in the second document. -/
theorem listed_two : ∃ e,
    (Look.entries ⟨two, "/p/.a.csproj"⟩ Example.new.options "/p/.a.csproj" jobs).find? (·.key == "M:K.F") =
      some e ∧
    e.symbol.isDeclaredIn "/p/A.cs" = true ∧ e.symbol.isDeclaredIn "/p/B.cs" = false := by
  have hrun : ((jobs.flatMap (Workspace.entriesFor { provider := .knowing text outline, disk := two }
      Example.new.options "/p/.a.csproj")).find? (·.key == "M:K.F")).any (fun e =>
        e.symbol.isDeclaredIn "/p/A.cs" && !e.symbol.isDeclaredIn "/p/B.cs") = true := by
    decide +kernel
  rw [Provider.knowing_eq ofSource_text] at hrun
  generalize two = d at *
  obtain ⟨e, he, hin⟩ := (Option.any_eq_true _ _).mp hrun
  rw [Bool.and_eq_true, Bool.not_eq_true'] at hin
  exact ⟨e, he, hin⟩

theorem analyzeProject_ok : ∃ project, ((session .workspace).analyzer.analyzeProject
    (Manner.workspace {} two) {} "/p/.a.csproj").result = .ok project := by
  obtain ⟨hpath, htext, hparent⟩ := manifest_two
  have hcall : ({} : Call).cancelled = false := rfl
  generalize two = d at *
  exact Analyzer.analyzeProject_succeeds _ rfl (fun _ => rfl) hcall hpath hparent htext

end Session.Grown

/-- The member stays located in the document that was there first, and a new analyzer locates it in the
one that is listed first. -/
theorem Session.index_against_fromScratch_grown : ∃ project e e',
    ((Grown.session .workspace).analyzer.analyzeProject (Manner.workspace {} Grown.two) {}
      "/p/.a.csproj").result = .ok project ∧
    ((Grown.session .workspace).analyzer.analyzeProject (Manner.workspace {} Grown.two) {}
      "/p/.a.csproj").analyzer.index.get? "M:K.F" = some e ∧
    (Example.new.analyzeProject (Look.workspace ⟨Grown.two, "/p/.a.csproj"⟩) {}
      "/p/.a.csproj").analyzer.index.get? "M:K.F" = some e' ∧
    (e.symbol.isDeclaredIn "/p/B.cs" = true ∧ e.symbol.isDeclaredIn "/p/A.cs" = false) ∧
    e'.symbol.isDeclaredIn "/p/A.cs" = true ∧ e'.symbol.isDeclaredIn "/p/B.cs" = false := by
  have hnew : Analyzer.ofConfig {} = .ok Example.new := rfl
  have hs : (start Example.new).run (Grown.events .workspace) = Grown.session .workspace := rfl
  have hhead : "M:K.F".toList = 'M' :: ":K.F".toList := rfl
  have hid : ¬IsTypeId "M:K.F" := CSharp.not_isTypeId_of_head hhead (by decide)
  obtain ⟨project, hok⟩ := Grown.analyzeProject_ok
  obtain ⟨held, hheld, hin⟩ := Grown.held
  obtain ⟨first, hfirst, hin'⟩ := Grown.listed_two
  obtain ⟨hstamped, hstale⟩ := Grown.plan_two
  obtain ⟨hpath, -⟩ := Grown.manifest_two
  have hdisk := Grown.disk_session
  have hlooks := Grown.looks_session
  have htimes := Grown.timesTell
  have hevents := Grown.events_forProject
  generalize Grown.two = d at *
  generalize Grown.session .workspace = s at *
  subst hdisk
  have htimes' : TimesTell (s.looks ++ [⟨s.disk, "/p/.a.csproj"⟩]) := by
    rw [hlooks]
    exact htimes
  have hfile : project.projectFilePath = "/p/.a.csproj" :=
    Except.ok.inj ((Analyzer.canonical_of_analyzeProject hok).symm.trans hpath)
  obtain ⟨-, -, -, hmembers, -⟩ :=
    index_against_fromScratch hnew hnew hevents hs (m := {}) rfl rfl htimes' hok
  obtain ⟨hafter, hscratch, -⟩ := hmembers "M:K.F" hid
  rw [hfile, hstamped] at hscratch
  rw [Analyzer.memberAfter?, hheld, hstale] at hafter
  refine ⟨project, held, first, hok, ?_, hscratch.trans hfirst, hin, hin'⟩
  -- The document of the entry that is held has not changed.
  rw [hafter]
  simp [hin.2]

end SolutionAtlas
