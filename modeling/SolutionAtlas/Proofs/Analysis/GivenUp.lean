-- SUMMARY: A pass that is given up leaves nothing of what it has begun.
import Mathlib
import SolutionAtlas.Proofs.Analysis.PassIndex

/-!
# Passes that are given up

While a pass goes over the changed documents, it adds their symbols to the index. When it is given up,
whatever it has added lies in these documents and is taken out with them, and what it has found there
it has not overwritten. So all that shows of it is that the entries of the files that were out of date
are gone.
-/

namespace SolutionAtlas

/-! ## Files out of date -/

/-- What is remembered of a file no longer holds: its document is not listed any more, or it is listed
and nothing is remembered of it with the same time of change. -/
def OutOfDate (previous : Table AnalyzedDocument) (jobs : List DocumentJob) (file : String) : Prop :=
  (∃ e ∈ previous, e.2.path = file ∧ ∀ j ∈ jobs, Path.tidy j.path ≠ e.1) ∨
    ∃ j ∈ jobs, j.path = file ∧
      ∀ old ∈ previous.get? (Path.tidy j.path), old.modifiedMs ≠ j.modifiedMs

instance (previous : Table AnalyzedDocument) (jobs : List DocumentJob) :
    DecidablePred (OutOfDate previous jobs) :=
  fun _ => inferInstanceAs (Decidable (_ ∨ _))

theorem reusable?_eq_none {previous : Table AnalyzedDocument} {j : DocumentJob} :
    reusable? previous j = none ↔
      ∀ old ∈ previous.get? (Path.tidy j.path), old.modifiedMs ≠ j.modifiedMs := by
  simp only [Option.eq_none_iff_forall_ne_some, ne_eq, reusable?_eq_some, not_exists, not_and,
    Option.mem_def]
  exact ⟨fun h old hold htime => h _ old hold htime rfl, fun h _ old hold htime _ => h old hold htime⟩

namespace Plan

variable {previous : Table AnalyzedDocument} {stamped : Stamped} {file : String}

theorem mem_changedPaths :
    file ∈ (ofStamped previous stamped).changedPaths ↔
      ∃ j ∈ (ofStamped previous stamped).changed, j.path = file := by
  rw [changedPaths, List.mem_map]

/-- The stale files of a plan are those that are out of date. -/
theorem mem_stale :
    file ∈ (ofStamped previous stamped).stale ↔ OutOfDate previous stamped.jobs file := by
  simp only [stale, List.mem_append, mem_gone, mem_changedPaths, mem_changed, reusable?_eq_none,
    OutOfDate]
  refine or_congr ?_ ?_
  · exact exists_congr fun e => and_congr_right fun _ => and_comm
  · exact exists_congr fun j => by rw [and_assoc, and_comm (a := j.path = file)]

end Plan

/-! ## What a document adds -/

theorem AnalyzedDocument.ofOutline_liesIn {j : DocumentJob} {o : CSharp.Outline}
    {options : ExtractOptions} {project : String} {e : IndexEntry}
    (he : e ∈ entriesOf project (ofOutline j o options).declared) : e.symbol.LiesIn j.path := by
  obtain ⟨p, hp, hentry⟩ := mem_entriesOf.mp he
  unfold declared ofOutline at hp
  split at hp
  · cases hp
  · obtain ⟨n, -, t, -, rfl⟩ := CSharp.Outline.mem_declaredIn hp
    rcases hentry with rfl | ⟨m, hm, rfl⟩
    · exact Symbol.liesIn_singleton _ t.span _ rfl
    · obtain ⟨om, -, rfl⟩ := List.mem_map.mp hm
      exact Symbol.liesIn_singleton _ om.span _ rfl

theorem Workspace.liesIn_of_mem_entriesFor {w : Workspace} {options : ExtractOptions}
    {project : String} {j : DocumentJob} {e : IndexEntry} (he : e ∈ w.entriesFor options project j) :
    e.symbol.LiesIn j.path := by
  obtain ⟨document, houtcome, he⟩ := mem_entriesFor.mp he
  obtain ⟨_, outline, -, rfl⟩ := outcome_ok houtcome
  exact AnalyzedDocument.ofOutline_liesIn he

/-! ## The index after a pass that is given up -/

namespace Analyzer

variable {x : SymbolIndex} {w : Workspace} {options : ExtractOptions} {project : String}

theorem dropFiles_eq_without (h : x.Consistent) (paths : List String) :
    dropFiles x paths = x.without fun e => ∃ l ∈ e.symbol.locations, l.filePath ∈ paths := by
  refine (consistent_dropFiles h paths).ext h.without fun key => Option.ext fun e => ?_
  rw [get?_dropFiles_eq_some h, h.get?_without, Option.filter_eq_some_iff]
  simp only [Bool.not_eq_true', decide_eq_false_iff_not, not_exists, not_and]

/-- Adding the entries of some documents and taking all that lies in them out again changes nothing
else. -/
theorem dropFiles_indexJobs (h : x.Consistent) {jobs : List DocumentJob} {paths : List String}
    (hjobs : ∀ j ∈ jobs, j.path ∈ paths) :
    dropFiles (w.indexJobs options project x jobs) paths = dropFiles x paths := by
  have hadded : (w.indexJobs options project x jobs).Consistent := Workspace.consistent_indexJobs h jobs
  refine (consistent_dropFiles hadded paths).ext (consistent_dropFiles h paths) fun key =>
    Option.ext fun e => ?_
  rw [get?_dropFiles_eq_some hadded, get?_dropFiles_eq_some h]
  refine and_congr_left fun hstays => ⟨fun hfound => ?_, fun hfound => ?_⟩
  · refine (Workspace.get?_indexJobs_cases hfound).resolve_right ?_
    rintro ⟨-, j, hj, he⟩
    have hlies := Workspace.liesIn_of_mem_entriesFor he
    obtain ⟨l, hl⟩ := List.exists_mem_of_ne_nil _ hlies.located
    exact hstays l hl (hlies.only l hl ▸ hjobs j hj)
  · -- Adding never overwrites, so what was there is still found.
    rw [Workspace.indexJobs_eq, SymbolIndex.get?_addEach, hfound, Option.some_or]

theorem dropFiles_dropFiles (h : x.Consistent) {paths subset : List String} (hsub : subset ⊆ paths) :
    dropFiles (dropFiles x paths) subset = dropFiles x paths := by
  have hdropped := consistent_dropFiles h paths
  refine (consistent_dropFiles hdropped subset).ext hdropped fun key => Option.ext fun e => ?_
  rw [get?_dropFiles_eq_some hdropped, get?_dropFiles_eq_some h]
  exact and_iff_left_of_imp fun hfound l hl hin => hfound.2 l hl (hsub hin)

/-- A pass ends before it has listed the documents: the caller has given up already, or does so while
the project is loaded. -/
def StopsEarly (w : Workspace) (call : Call) (manifest : String) : Prop :=
  call.cancelled = true ∨ ∃ project, w.disk.canonical manifest = .ok project ∧
    w.provider.loadProject w.disk project = .error .cancelled

theorem pass_givenUp {a : Analyzer} {w : Workspace} {call : Call} {manifest : String}
    (h : (a.pass w call manifest).result = .error .cancelled) :
    (StopsEarly w call manifest ∧ (a.pass w call manifest).analyzer = a) ∨
      ∃ project directory source, w.disk.canonical manifest = .ok project ∧
        w.provider.loadProject w.disk project = .ok source ∧ Path.parent? project = some directory ∧
        a.pass w call manifest = a.analyzeSource w call project directory source := by
  unfold pass at h ⊢
  by_cases hcall : call.cancelled = true
  · rw [if_pos hcall]
    exact .inl ⟨.inl hcall, rfl⟩
  · rw [if_neg hcall] at h ⊢
    cases hproject : w.disk.canonical manifest with
    | error e =>
      rw [hproject] at h
      cases h
    | ok project =>
      rw [hproject] at h
      dsimp only at h ⊢
      cases hsource : w.provider.loadProject w.disk project with
      | error e =>
        rw [hsource] at h
        cases h
        exact .inl ⟨.inr ⟨project, hproject, hsource⟩, rfl⟩
      | ok source =>
        rw [hsource] at h
        cases hdirectory : Path.parent? project with
        | none =>
          rw [hdirectory] at h
          cases h
        | some directory =>
          exact .inr ⟨project, directory, source, rfl, hsource, hdirectory, rfl⟩

/-- The index once a pass over listed documents is given up, whichever of them it has analyzed. -/
theorem index_of_givenUp (a : Analyzer) (h : a.index.Consistent) {stamped : Stamped}
    {done : List DocumentJob} (project : String)
    (hdone : done ⊆ (Plan.ofStamped (a.documentsOf project) stamped).changed) :
    let plan := Plan.ofStamped (a.documentsOf project) stamped
    dropFiles (w.indexJobs a.options project (dropFiles a.index plan.stale) done) plan.changedPaths =
      a.index.without fun e => ∃ l ∈ e.symbol.locations,
        OutOfDate (a.documentsOf project) stamped.jobs l.filePath := by
  intro plan
  have hpaths : ∀ j ∈ done, j.path ∈ plan.changedPaths :=
    fun j hj => Plan.mem_changedPaths.mpr ⟨j, hdone hj, rfl⟩
  have hsub : plan.changedPaths ⊆ plan.stale := List.subset_append_right _ _
  rw [dropFiles_indexJobs (consistent_dropFiles h _) hpaths, dropFiles_dropFiles h hsub,
    dropFiles_eq_without h]
  simp only [plan, Plan.mem_stale]

namespace Example

def entry (id file : String) : IndexEntry where
  key := id
  symbol := ⟨some id, id, id, .classType, .publicAccess, [], none, [⟨file, 1, 1, 1, 1⟩]⟩
  detail := .type [] [] []
  projectFilePath := "/p/A.csproj"
  nameSpace := "N"

def outlineType (id : String) : CSharp.OutlineType :=
  ⟨id, id, id, .classType, .publicAccess, [], [], none, none, [], [], ⟨1, 1, 1, 1⟩, []⟩

/-- One document is listed, and the caller gives up while it is parsed. -/
def midway : Workspace where
  provider := { Provider.workspace with
    loadProject := fun _ manifest => .ok ⟨"A", manifest, "", ["/p"], ["/p/A.cs"], []⟩
    parseDocument := fun _ _ =>
      ⟨.ok { namespaces := [⟨"N", [outlineType "T:Held", outlineType "T:New"]⟩] }, true⟩ }
  disk := {
    folders := [(["p"], 1)]
    files := [(["p", "A.csproj"], ⟨.empty, 1⟩), (["p", "A.cs"], ⟨.empty, 1⟩)] }

/-- The document is remembered with another time of change, and besides one that is gone. -/
def remembering : Analyzer where
  config := { excludePatterns := [] }
  exclude := {}
  index := SymbolIndex.empty.addEach
    [entry "T:Held" "/q/H.cs", entry "T:Old" "/p/A.cs", entry "T:Gone" "/p/B.cs"]
  documents := [("/p/A.csproj",
    [("/p/A.cs", ⟨"/p/A.cs", 0, "A.cs", [], [], 0, 0, 0, false⟩),
      ("/p/B.cs", ⟨"/p/B.cs", 1, "B.cs", [], [], 0, 0, 0, false⟩)])]

end Example

/-- A pass that is given up leaves the analyzer as it was but for the index, and the index as it was
but for the entries that have a location in a file that was out of date. If it is given up before the
documents are compared, it leaves everything as it was. -/
theorem analyzeProject_givenUp (a : Analyzer) (w : Workspace) (call : Call) (manifest : String)
    (h : a.index.Consistent) (hresult : (a.analyzeProject w call manifest).result = .error .cancelled) :
    let b := (a.analyzeProject w call manifest).analyzer
    (StopsEarly w call manifest ∧ b = a) ∨
      ∃ project directory source, w.disk.canonical manifest = .ok project ∧
        w.provider.loadProject w.disk project = .ok source ∧ Path.parent? project = some directory ∧
        let root := source.rootDirs.head?.getD directory
        let jobs := (Stamped.ofPaths w.disk a.exclude root source.documents).jobs
        b = { a with index := a.index.without fun e =>
          ∃ l ∈ e.symbol.locations, OutOfDate (a.documentsOf project) jobs l.filePath } := by
  intro b
  -- The last report is only set when there is a result.
  obtain ⟨hpass, hb⟩ : (a.pass w call manifest).result = .error .cancelled ∧
      b = (a.pass w call manifest).analyzer := by
    simp only [b, analyzeProject] at hresult ⊢
    split at hresult
    · cases hresult
    · rename_i e he
      cases hresult
      exact ⟨he, rfl⟩
  rw [hb]
  rcases pass_givenUp hpass with ⟨hearly, hafter⟩ | ⟨project, directory, source, hproject, hsource,
    hdirectory, hafter⟩
  · exact .inl ⟨hearly, hafter⟩
  · refine .inr ⟨project, directory, source, hproject, hsource, hdirectory, ?_⟩
    rw [hafter] at hpass ⊢
    rcases analyzeSource_cases a w call project directory source with
      ⟨done, hdone, -, hindex, -⟩ | ⟨_, _, -, hok, -⟩
    · rw [hindex, planFor, index_of_givenUp a h project hdone]
    · rw [hok] at hpass
      cases hpass

/-- The document has been analyzed; of its two types one was held already, and the other is taken out
again. -/
theorem analyzeProject_givenUp_midway :
    let a := Example.remembering
    let o := a.analyzeProject Example.midway {} "/p/A.csproj"
    a.index.Consistent ∧ o.result = .error .cancelled ∧ o.call.parses = 1 ∧
      ¬StopsEarly Example.midway {} "/p/A.csproj" ∧
      o.analyzer = { a with index := a.index.without (∃ l ∈ ·.symbol.locations,
        OutOfDate (a.documentsOf "/p/A.csproj") [⟨"/p/A.cs", "A.cs", 1⟩] l.filePath) } ∧
      o.analyzer.index.snapshot.map (·.key) = ["T:Held"] := by
  intro a o
  have hconsistent : a.index.Consistent := SymbolIndex.Consistent.empty.addEach _
  have hresult : o.result = .error .cancelled := by decide +kernel
  have hcanonical : Example.midway.disk.canonical "/p/A.csproj" = .ok "/p/A.csproj" := by decide +kernel
  have hstamped : (Stamped.ofPaths Example.midway.disk a.exclude "/p" ["/p/A.cs"]).jobs =
      [⟨"/p/A.cs", "A.cs", 1⟩] := by decide +kernel
  have hearly : ¬StopsEarly Example.midway {} "/p/A.csproj" := by
    rintro (hcancelled | ⟨project, -, hsource⟩)
    · cases hcancelled
    · cases hsource
  refine ⟨hconsistent, hresult, by decide +kernel, hearly, ?_, by decide +kernel⟩
  rcases analyzeProject_givenUp a Example.midway {} "/p/A.csproj" hconsistent hresult with
    ⟨hstops, -⟩ | ⟨project, directory, source, hproject, hsource, -, hafter⟩
  · exact absurd hstops hearly
  · rw [hcanonical] at hproject
    cases hproject
    cases hsource
    simp only [List.head?_cons, Option.getD_some, hstamped] at hafter
    exact hafter

end Analyzer

end SolutionAtlas
