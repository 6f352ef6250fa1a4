-- SUMMARY: What one pass over a project does, whatever the waves and their order are.
import Mathlib
import SolutionAtlas.Analysis.Analyzer
import SolutionAtlas.Proofs.Index.Consistency

/-!
# One pass

A pass that is not given up analyzes every changed document once; in which waves and in which order
shows in the index and in the report alone. `Analyzer.analyzeSource_cases` says all that a pass over
listed documents can do, and `Workspace.kept` which documents a project has after it.
-/

namespace SolutionAtlas

/-! ## Documents of a pass -/

theorem Path.mem_of_mem_sorted {path : String} {paths : List String} (h : path ∈ sorted paths) :
    path ∈ paths := by
  rw [sorted, List.mem_mergeSort] at h
  induction paths with
  | nil => cases h
  | cons p paths ih =>
    rw [List.foldr_cons] at h
    split at h
    · exact List.mem_cons_of_mem _ (ih h)
    · rcases List.mem_cons.mp h with rfl | h
      · exact List.mem_cons_self
      · exact List.mem_cons_of_mem _ (ih h)

theorem Path.sorted_nodup (paths : List String) : ((sorted paths).map tidy).Nodup := by
  rw [sorted, ((List.mergeSort_perm _ _).map tidy).nodup_iff]
  induction paths with
  | nil => exact List.nodup_nil
  | cons p paths ih =>
    rw [List.foldr_cons]
    split
    · exact ih
    · rename_i hnew
      refine List.nodup_cons.mpr ⟨fun hin => ?_, ih⟩
      obtain ⟨q, hq, heq⟩ := List.mem_map.mp hin
      exact hnew (List.any_eq_true.mpr ⟨q, hq, beq_iff_eq.mpr heq⟩)

/-- The job of a path, when it enters the analysis and is there. -/
def DocumentJob.ofPath? (d : Disk) (exclude : ExcludeFilter) (root path : String) :
    Option DocumentJob :=
  let relative := pathBelow root path
  if isEligibleDocument exclude path relative then
    (d.modifiedMs path).toOption.map fun t => ⟨path, relative, t⟩
  else none

theorem DocumentJob.ofPath?_eq_some {d : Disk} {exclude : ExcludeFilter} {root path : String}
    {j : DocumentJob} (h : ofPath? d exclude root path = some j) :
    j.path = path ∧ j.relativePath = pathBelow root path ∧ d.modifiedMs path = .ok j.modifiedMs := by
  simp only [ofPath?] at h
  split at h
  · cases ht : d.modifiedMs path with
    | error e =>
      rw [ht] at h
      cases h
    | ok t =>
      rw [ht] at h
      cases h
      exact ⟨rfl, rfl, rfl⟩
  · cases h

namespace Stamped

variable {d : Disk} {exclude : ExcludeFilter} {root : String} {paths : List String}

theorem jobs_add (s : Stamped) (path : String) :
    (add d exclude root s path).jobs =
      s.jobs ++ (DocumentJob.ofPath? d exclude root path).toList := by
  simp only [add, DocumentJob.ofPath?]
  cases isEligibleDocument exclude path (pathBelow root path) with
  | false => simp
  | true => cases d.modifiedMs path <;> simp [Except.toOption]

theorem jobs_ofPaths :
    (ofPaths d exclude root paths).jobs =
      (Path.sorted paths).filterMap (DocumentJob.ofPath? d exclude root) := by
  have hfold (ps : List String) (s : Stamped) :
      (ps.foldl (add d exclude root) s).jobs =
        s.jobs ++ ps.filterMap (DocumentJob.ofPath? d exclude root) := by
    induction ps generalizing s with
    | nil => simp
    | cons p ps ih =>
      rw [List.foldl_cons, ih, jobs_add, List.append_assoc, List.filterMap_cons]
      cases DocumentJob.ofPath? d exclude root p <;> rfl
  exact (hfold _ _).trans (List.nil_append _)

theorem mem_jobs {j : DocumentJob} (h : j ∈ (ofPaths d exclude root paths).jobs) :
    j.path ∈ paths ∧ j.relativePath = pathBelow root j.path ∧ d.modifiedMs j.path = .ok j.modifiedMs := by
  rw [jobs_ofPaths] at h
  obtain ⟨path, hpath, hj⟩ := List.mem_filterMap.mp h
  obtain ⟨rfl, hrelative, htime⟩ := DocumentJob.ofPath?_eq_some hj
  exact ⟨Path.mem_of_mem_sorted hpath, hrelative, htime⟩

/-- Every document is listed once. -/
theorem jobs_nodup : ((ofPaths d exclude root paths).jobs.map fun j => Path.tidy j.path).Nodup := by
  rw [jobs_ofPaths]
  refine (Path.sorted_nodup paths).sublist ?_
  induction Path.sorted paths with
  | nil => exact List.Sublist.slnil
  | cons p ps ih =>
    rw [List.filterMap_cons, List.map_cons]
    cases hj : DocumentJob.ofPath? d exclude root p with
    | none => exact ih.cons _
    | some j =>
      rw [List.map_cons, (DocumentJob.ofPath?_eq_some hj).1]
      exact ih.cons_cons _

end Stamped

/-! ## Waves -/

theorem flatten_piecesOf {α : Type} {size : Nat} (hsize : 0 < size) (fuel : Nat) (xs : List α)
    (hfuel : xs.length ≤ fuel) : (piecesOf size fuel xs).flatten = xs := by
  induction fuel generalizing xs with
  | zero =>
    obtain rfl := List.length_eq_zero_iff.mp (Nat.le_zero.mp hfuel)
    rfl
  | succ fuel ih =>
    cases xs with
    | nil => rfl
    | cons x xs =>
      have hrest : ((x :: xs).drop size).length ≤ fuel := by
        rw [List.length_drop]
        omega
      rw [piecesOf, List.flatten_cons, ih _ hrest, List.take_append_drop]
      simp

/-- The documents of some waves, in the order in which they are done. -/
def Schedule.flatten (s : Schedule) (waves : List (List DocumentJob)) : List DocumentJob :=
  waves.flatMap s.order

theorem Schedule.flatten_perm (s : Schedule) (waves : List (List DocumentJob)) :
    (s.flatten waves).Perm waves.flatten := by
  induction waves with
  | nil => exact .refl _
  | cons wave waves ih => exact (s.order_perm wave).append ih

/-- The documents of a pass may be done in this order; one after the other, they are done as listed. -/
structure Schedule.Allows (s : Schedule) (listed order : List DocumentJob) : Prop where
  perm : order.Perm listed
  inTurn : s = .inTurn → order = listed

theorem Schedule.Allows.subset {s : Schedule} {listed order : List DocumentJob}
    (h : s.Allows listed order) : order ⊆ listed :=
  h.perm.subset

theorem Schedule.allows_flatten (s : Schedule) (waves : List (List DocumentJob)) :
    s.Allows waves.flatten (s.flatten waves) where
  perm := s.flatten_perm waves
  inTurn := by
    rintro rfl
    exact List.flatMap_id

namespace Workspace

variable (w : Workspace) (options : ExtractOptions)

/-- The documents with what their analysis comes to. -/
def outcomesOf (jobs : List DocumentJob) : List (DocumentJob × Except String AnalyzedDocument) :=
  jobs.map fun j => (j, (w.analyzeDocument options j).outcome)

/-- The caller gives up right before a document or while it is parsed. -/
def GivesUpAt (j : DocumentJob) : Prop :=
  w.givesUp (.beforeDocument j) = true ∨ (w.analyzeDocument options j).givesUp = true

/-- The index with the symbols of analyzed documents. -/
def indexJobs (project : String) (x : SymbolIndex) (jobs : List DocumentJob) : SymbolIndex :=
  jobs.foldl (fun x j => Pass.indexOutcome project x (w.analyzeDocument options j).outcome) x

end Workspace

namespace Pass

variable {w : Workspace} {project : String} {options : ExtractOptions}

theorem foldl_runWave (p : Pass) (waves : List (List DocumentJob)) :
    waves.foldl (runWave w project options) p =
      (w.schedule.flatten waves).foldl (analyze w project options) p := by
  induction waves generalizing p with
  | nil => rfl
  | cons wave waves ih =>
    rw [List.foldl_cons, ih, Schedule.flatten, Schedule.flatten, List.flatMap_cons, List.foldl_append]
    rfl

theorem foldl_analyze_of_cancelled {p : Pass} (h : p.call.cancelled = true) (jobs : List DocumentJob) :
    jobs.foldl (analyze w project options) p = p := by
  induction jobs with
  | nil => rfl
  | cons j jobs ih =>
    have hstay : analyze w project options p j = p := by
      obtain ⟨⟨cancelled, parses⟩, index, outcomes⟩ := p
      cases h
      rfl
    rw [List.foldl_cons, hstay, ih]

/-- A pass has done the documents up to where it was cancelled, and it is cancelled only by a caller
who had given up before or gives up at one of its documents. -/
theorem foldl_analyze (w : Workspace) (project : String) (options : ExtractOptions) (p : Pass)
    (jobs : List DocumentJob) :
    let after := jobs.foldl (analyze w project options) p
    ∃ done rest, jobs = done ++ rest ∧
      after.outcomes = p.outcomes ++ w.outcomesOf options done ∧
      after.index = w.indexJobs options project p.index done ∧
      (after.call.cancelled = false → rest = []) ∧
      (after.call.cancelled = true → p.call.cancelled = true ∨ ∃ j ∈ jobs, w.GivesUpAt options j) := by
  induction jobs generalizing p with
  | nil => exact ⟨[], [], rfl, (List.append_nil _).symm, rfl, fun _ => rfl, .inl⟩
  | cons j jobs ih =>
    dsimp only
    rw [List.foldl_cons]
    by_cases hstop : (p.call.cancelled || w.givesUp (.beforeDocument j)) = true
    · rw [analyze, if_pos hstop, foldl_analyze_of_cancelled rfl]
      refine ⟨[], j :: jobs, rfl, (List.append_nil _).symm, rfl, ⟨fun h => ?_, fun _ => ?_⟩⟩
      · cases h
      · rcases Bool.or_eq_true_iff.mp hstop with hbefore | hnow
        · exact .inl hbefore
        · exact .inr ⟨j, List.mem_cons_self, .inl hnow⟩
    · rw [analyze, if_neg hstop]
      obtain ⟨done, rest, hjobs, houtcomes, hindex, hrest, hcancelled⟩ := ih _
      refine ⟨j :: done, rest, ?_, ?_, hindex, hrest, fun h => .inr ?_⟩
      · rw [hjobs, List.cons_append]
      · refine houtcomes.trans ?_
        rw [List.append_assoc]
        rfl
      · rcases hcancelled h with hwhile | ⟨i, hi, hgives⟩
        · exact ⟨j, List.mem_cons_self, .inr hwhile⟩
        · exact ⟨i, List.mem_cons_of_mem _ hi, hgives⟩

end Pass

/-! ## Documents kept -/

namespace Workspace

variable (w : Workspace) (options : ExtractOptions) (previous : Table AnalyzedDocument)

/-- The result for a document: that of an earlier pass if it still holds, or else a new one. -/
def resultFor? (j : DocumentJob) : Option AnalyzedDocument :=
  (reusable? previous j).or (w.analyzeDocument options j).outcome.toOption

/-- The documents that a project has after a pass. -/
def kept (jobs : List DocumentJob) : Table AnalyzedDocument :=
  Table.fill (fun j => Path.tidy j.path) (w.resultFor? options previous) [] jobs

variable {w options previous}

theorem resultFor?_eq_some {j : DocumentJob} {document : AnalyzedDocument} :
    w.resultFor? options previous j = some document ↔
      reusable? previous j = some document ∨
        (reusable? previous j = none ∧ (w.analyzeDocument options j).outcome = .ok document) := by
  rw [resultFor?, Option.or_eq_some_iff]
  cases (w.analyzeDocument options j).outcome <;> simp [Except.toOption]

theorem kept_ascending (jobs : List DocumentJob) : (w.kept options previous jobs).Ascending :=
  Table.Ascending.nil.fill jobs

theorem get?_kept {jobs : List DocumentJob} (hnodup : (jobs.map fun j => Path.tidy j.path).Nodup)
    {key : String} {document : AnalyzedDocument} :
    (w.kept options previous jobs).get? key = some document ↔
      ∃ j ∈ jobs, Path.tidy j.path = key ∧ w.resultFor? options previous j = some document := by
  rw [kept, Table.get?_fill hnodup]
  simp

theorem kept_congr {w' : Workspace} {previous' : Table AnalyzedDocument} {jobs : List DocumentJob}
    (h : ∀ j ∈ jobs, w.resultFor? options previous j = w'.resultFor? options previous' j) :
    w.kept options previous jobs = w'.kept options previous' jobs :=
  Table.fill_congr h

end Workspace

namespace Plan

variable {previous : Table AnalyzedDocument} {stamped : Stamped}

theorem mem_changed {j : DocumentJob} :
    j ∈ (ofStamped previous stamped).changed ↔ j ∈ stamped.jobs ∧ reusable? previous j = none := by
  rw [ofStamped, List.mem_filter, Option.isNone_iff_eq_none]

theorem mem_gone {path : String} :
    path ∈ (ofStamped previous stamped).gone ↔
      ∃ e ∈ previous, (∀ j ∈ stamped.jobs, Path.tidy j.path ≠ e.1) ∧ e.2.path = path := by
  simp [ofStamped, and_assoc]

theorem reused_eq (previous : Table AnalyzedDocument) (stamped : Stamped) :
    (ofStamped previous stamped).reused =
      Table.fill (fun j => Path.tidy j.path) (reusable? previous) [] stamped.jobs := by
  unfold Table.fill ofStamped
  refine congrArg (List.foldl · _ _) (funext fun t => funext fun j => ?_)
  cases reusable? previous j <;> rfl

theorem changed_nodup (hnodup : (stamped.jobs.map fun j => Path.tidy j.path).Nodup) :
    ((ofStamped previous stamped).changed.map fun j => Path.tidy j.path).Nodup :=
  hnodup.sublist (List.Sublist.map _ List.filter_sublist)

end Plan

namespace Analyzer

variable {w : Workspace} {options : ExtractOptions}

theorem withOutcomes_eq_fill (t : Table AnalyzedDocument) (jobs : List DocumentJob) :
    withOutcomes t (w.outcomesOf options jobs) =
      Table.fill (fun j => Path.tidy j.path) (fun j => (w.analyzeDocument options j).outcome.toOption)
        t jobs := by
  rw [withOutcomes, Workspace.outcomesOf, Table.fill, List.foldl_map]
  congr 1
  funext t j
  cases (w.analyzeDocument options j).outcome <;> rfl

/-- Which documents a project has after a pass does not depend on the order of their analysis. -/
theorem withOutcomes_reused {previous : Table AnalyzedDocument} {stamped : Stamped}
    (hnodup : (stamped.jobs.map fun j => Path.tidy j.path).Nodup) {order : List DocumentJob}
    (horder : order.Perm (Plan.ofStamped previous stamped).changed) :
    withOutcomes (Plan.ofStamped previous stamped).reused (w.outcomesOf options order) =
      w.kept options previous stamped.jobs := by
  have horderNodup : (order.map fun j => Path.tidy j.path).Nodup :=
    (horder.map _).nodup_iff.mpr (Plan.changed_nodup hnodup)
  have hunique {i j : DocumentJob} (hi : i ∈ stamped.jobs) (hj : j ∈ stamped.jobs)
      (h : Path.tidy i.path = Path.tidy j.path) : i = j :=
    List.inj_on_of_nodup_map hnodup hi hj h
  rw [withOutcomes_eq_fill, Plan.reused_eq]
  refine Table.Ascending.ext ((Table.Ascending.nil.fill _).fill _) (Workspace.kept_ascending _) fun key => ?_
  refine Option.ext fun document => ?_
  rw [Table.get?_fill horderNodup, Table.get?_fill hnodup, Workspace.get?_kept hnodup]
  simp only [horder.mem_iff, Plan.mem_changed, Table.get?_nil, Workspace.resultFor?, Option.or_eq_some_iff]
  constructor
  · rintro (⟨j, ⟨hj, hchanged⟩, hkey, hdocument⟩ | ⟨hreused, hnone⟩)
    · exact ⟨j, hj, hkey, .inr ⟨hchanged, hdocument⟩⟩
    · rcases hreused with ⟨j, hj, hkey, hdocument⟩ | ⟨hempty, -⟩
      · exact ⟨j, hj, hkey, .inl hdocument⟩
      · cases hempty
  · rintro ⟨j, hj, hkey, hdocument | ⟨hchanged, hdocument⟩⟩
    · -- No changed document can overwrite one that is taken over: paths are listed once.
      refine .inr ⟨.inl ⟨j, hj, hkey, hdocument⟩, ?_⟩
      rintro i ⟨hi, hchanged⟩ hikey
      obtain rfl := hunique hi hj (hikey.trans hkey.symm)
      rw [hdocument] at hchanged
      cases hchanged
    · exact .inl ⟨j, ⟨hj, hchanged⟩, hkey, hdocument⟩

/-! ## The whole pass -/

theorem stamped_planFor (a : Analyzer) (d : Disk) (project root : String) (source : ProjectSource) :
    (a.planFor d project root source).stamped = .ofPaths d a.exclude root source.documents := rfl

theorem documentsOf_assemble (a : Analyzer) (d : Disk) (source : ProjectSource)
    (project root : String) (manifest : Manifest) (kept : Table AnalyzedDocument) (x : SymbolIndex)
    (other : String) :
    (a.assemble d source project root manifest kept x).2.documentsOf other =
      if project = other then kept else a.documentsOf other := by
  unfold documentsOf
  rw [assemble, Table.get?_insert]
  split <;> rfl

/-- All that a pass over listed documents can do: it is given up, and the changed documents are taken
out of the index again, or it has analyzed all of them in some order, put the project together, and
counted what came of them. -/
theorem analyzeSource_ends (a : Analyzer) (w : Workspace) (call : Call) (project directory : String)
    (source : ProjectSource) :
    let root := source.rootDirs.head?.getD directory
    let plan := a.planFor w.disk project root source
    let index := w.indexJobs a.options project (dropFiles a.index plan.stale)
    let o := a.analyzeSource w call project directory source
    (∃ done ⊆ plan.changed, o.result = .error .cancelled ∧
        o.analyzer = { a with index := dropFiles (index done) plan.changedPaths } ∧
        (call.cancelled = true ∨ ∃ j ∈ plan.changed, w.GivesUpAt a.options j)) ∨
      ∃ order, w.schedule.Allows plan.changed order ∧
        let built := a.assemble w.disk source project root (Manifest.read source.manifestText directory)
          (w.kept a.options (a.documentsOf project) plan.stamped.jobs) (index order)
        o.result = .ok (built.1, reportOf plan ((w.outcomesOf a.options order).map (·.2))) ∧
          o.analyzer = built.2 := by
  intro root plan index o
  let jobs := w.schedule.flatten (piecesOf a.config.concurrency plan.changed.length plan.changed)
  let after := jobs.foldl (Pass.analyze w project a.options) ⟨call, dropFiles a.index plan.stale, []⟩
  -- Waves and schedules only regroup the changed documents.
  have hjobsAllowed : w.schedule.Allows plan.changed jobs := by
    have hsize : 0 < a.config.concurrency := Nat.lt_of_lt_of_le Nat.zero_lt_one (Nat.le_max_right _ _)
    have hflat := flatten_piecesOf hsize plan.changed.length plan.changed le_rfl
    exact hflat ▸ w.schedule.allows_flatten _
  have hafter : (piecesOf a.config.concurrency plan.changed.length plan.changed).foldl
      (Pass.runWave w project a.options) ⟨call, dropFiles a.index plan.stale, []⟩ = after :=
    Pass.foldl_runWave _ _
  have ho : o =
      if after.call.cancelled then
        ⟨.error .cancelled, { a with index := dropFiles after.index plan.changedPaths }, after.call⟩
      else
        let built := a.assemble w.disk source project root (Manifest.read source.manifestText directory)
          (withOutcomes plan.reused after.outcomes) after.index
        ⟨.ok (built.1, reportOf plan (after.outcomes.map (·.2))), built.2, after.call⟩ := by
    rw [← hafter]
    rfl
  obtain ⟨done, rest, hjobs, houtcomes, hindex, hrest, hcancelled⟩ :=
    Pass.foldl_analyze w project a.options ⟨call, dropFiles a.index plan.stale, []⟩ jobs
  change after.outcomes = _ at houtcomes
  change after.index = index done at hindex
  rw [ho, hindex]
  split
  · rename_i hstopped
    refine .inl ⟨done, fun j hj => hjobsAllowed.subset (hjobs ▸ List.mem_append_left rest hj), rfl, rfl, ?_⟩
    exact (hcancelled hstopped).imp_right fun ⟨j, hj, hgives⟩ => ⟨j, hjobsAllowed.subset hj, hgives⟩
  · rename_i hgoes
    obtain rfl := hrest (Bool.eq_false_iff.mpr hgoes)
    rw [List.append_nil] at hjobs
    have horder : w.schedule.Allows plan.changed done := hjobs ▸ hjobsAllowed
    have hkept : withOutcomes plan.reused after.outcomes =
        w.kept a.options (a.documentsOf project) plan.stamped.jobs := by
      rw [houtcomes, List.nil_append]
      exact withOutcomes_reused Stamped.jobs_nodup horder.perm
    rw [hkept, houtcomes, List.nil_append]
    exact .inr ⟨done, horder, rfl, rfl⟩

/-- The same, whatever the report says. -/
theorem analyzeSource_cases (a : Analyzer) (w : Workspace) (call : Call) (project directory : String)
    (source : ProjectSource) :
    let root := source.rootDirs.head?.getD directory
    let plan := a.planFor w.disk project root source
    let index := w.indexJobs a.options project (dropFiles a.index plan.stale)
    let o := a.analyzeSource w call project directory source
    (∃ done ⊆ plan.changed, o.result = .error .cancelled ∧
        o.analyzer = { a with index := dropFiles (index done) plan.changedPaths } ∧
        (call.cancelled = true ∨ ∃ j ∈ plan.changed, w.GivesUpAt a.options j)) ∨
      ∃ order report, w.schedule.Allows plan.changed order ∧
        let built := a.assemble w.disk source project root (Manifest.read source.manifestText directory)
          (w.kept a.options (a.documentsOf project) plan.stamped.jobs) (index order)
        o.result = .ok (built.1, report) ∧ o.analyzer = built.2 :=
  (analyzeSource_ends a w call project directory source).imp_right fun ⟨order, hend⟩ => ⟨order, _, hend⟩

/-- A pass fails before it looks at a document, or goes over the documents that are listed. -/
theorem pass_cases (a : Analyzer) (w : Workspace) (call : Call) (manifest : String) :
    (∃ e, a.pass w call manifest = ⟨.error e, a, call⟩) ∨
      ∃ project directory source, call.cancelled = false ∧ w.disk.canonical manifest = .ok project ∧
        w.provider.loadProject w.disk project = .ok source ∧ Path.parent? project = some directory ∧
        a.pass w call manifest = a.analyzeSource w call project directory source := by
  unfold pass
  split
  · exact .inl ⟨_, rfl⟩
  · rename_i hcall
    split
    · exact .inl ⟨_, rfl⟩
    · rename_i project hproject
      split
      · exact .inl ⟨_, rfl⟩
      · exact .inl ⟨_, rfl⟩
      · rename_i source directory hsource hdirectory
        exact .inr ⟨project, directory, source, Bool.eq_false_iff.mpr hcall, hproject, hsource,
          hdirectory, rfl⟩

/-- A pass over a project that can be loaded succeeds unless the caller gives up. -/
theorem pass_ok (a : Analyzer) {w : Workspace} {call : Call} {manifest project directory : String}
    {source : ProjectSource} (hcall : call.cancelled = false)
    (hgoes : ∀ j, ¬w.GivesUpAt a.options j) (hproject : w.disk.canonical manifest = .ok project)
    (hsource : w.provider.loadProject w.disk project = .ok source)
    (hdirectory : Path.parent? project = some directory) :
    ∃ result, (a.pass w call manifest).result = .ok result := by
  have hpass : a.pass w call manifest = a.analyzeSource w call project directory source := by
    simp [pass, hcall, hproject, hsource, hdirectory]
  rw [hpass]
  rcases analyzeSource_cases a w call project directory source with
    ⟨_, -, -, -, hcancelled | ⟨j, -, hgives⟩⟩ | ⟨_, _, -, hok, -⟩
  · rw [hcall] at hcancelled
    cases hcancelled
  · exact absurd hgives (hgoes j)
  · exact ⟨_, hok⟩

/-- A pass that succeeds has put the project together from the documents that are listed. -/
theorem pass_succeeds {a : Analyzer} {w : Workspace} {call : Call} {manifest : String}
    {result : Project × AnalysisReport} (h : (a.pass w call manifest).result = .ok result) :
    ∃ project directory source order, call.cancelled = false ∧
      w.disk.canonical manifest = .ok project ∧ w.provider.loadProject w.disk project = .ok source ∧
      Path.parent? project = some directory ∧
      let root := source.rootDirs.head?.getD directory
      let plan := a.planFor w.disk project root source
      let built := a.assemble w.disk source project root (Manifest.read source.manifestText directory)
        (w.kept a.options (a.documentsOf project) plan.stamped.jobs)
        (w.indexJobs a.options project (dropFiles a.index plan.stale) order)
      w.schedule.Allows plan.changed order ∧ result.1 = built.1 ∧ (a.pass w call manifest).analyzer = built.2 := by
  rcases pass_cases a w call manifest with
    ⟨e, hpass⟩ | ⟨project, directory, source, hcall, hproject, hsource, hdirectory, hpass⟩
  · rw [hpass] at h
    cases h
  · rw [hpass] at h ⊢
    rcases analyzeSource_cases a w call project directory source with
      ⟨_, -, hcancelled, -, -⟩ | ⟨order, report, horder, hok, hafter⟩
    · rw [hcancelled] at h
      cases h
    · rw [hok] at h
      cases h
      exact ⟨project, directory, source, order, hcall, hproject, hsource, hdirectory, horder, rfl, hafter⟩

/-- What an analyzer remembers after a pass it has remembered before, or the pass has taken it over or
found it out for a listed document. -/
theorem get?_documentsOf_pass {a : Analyzer} {w : Workspace} {call : Call} {manifest project key : String}
    {document : AnalyzedDocument}
    (h : ((a.pass w call manifest).analyzer.documentsOf project).get? key = some document) :
    (a.documentsOf project).get? key = some document ∨
      ∃ directory source, call.cancelled = false ∧ w.disk.canonical manifest = .ok project ∧
        w.provider.loadProject w.disk project = .ok source ∧ Path.parent? project = some directory ∧
        ∃ j ∈ (a.planFor w.disk project (source.rootDirs.head?.getD directory) source).stamped.jobs,
          Path.tidy j.path = key ∧
            w.resultFor? a.options (a.documentsOf project) j = some document := by
  rcases a.pass_cases w call manifest with
    ⟨e, hpass⟩ | ⟨path, directory, source, hcall, hpath, hsource, hdirectory, hpass⟩
  · rw [hpass] at h
    exact .inl h
  · rw [hpass] at h
    rcases a.analyzeSource_cases w call path directory source with
      ⟨_, -, -, hafter, -⟩ | ⟨order, _, -, -, hafter⟩
    · rw [hafter] at h
      exact .inl h
    · rw [hafter, documentsOf_assemble] at h
      split at h
      · rename_i hsame
        subst hsame
        obtain ⟨j, hj, hkey, hresult⟩ := (Workspace.get?_kept Stamped.jobs_nodup).mp h
        exact .inr ⟨directory, source, hcall, hpath, hsource, hdirectory, j, hj, hkey, hresult⟩
      · exact .inl h

end Analyzer

end SolutionAtlas
