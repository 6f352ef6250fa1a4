-- SUMMARY: What a pass does to the symbol index, told by look-ups.
import Mathlib
import SolutionAtlas.Proofs.Analysis.Document
import SolutionAtlas.Proofs.Analysis.Pass

/-!
# The index in a pass

A pass takes files out of the index, adds the entries of the documents it analyzes, and at last sets
or adds those of the merged types. Each of the three is described by what is found under a key after
it, and all keep an index consistent.
-/

namespace SolutionAtlas

/-! ## Adding entries -/

namespace SymbolIndex

variable {x : SymbolIndex}

/-- Adds entries one after the other, those whose keys are free. -/
def addEach (x : SymbolIndex) (es : List IndexEntry) : SymbolIndex :=
  es.foldl (fun x e => (x.add e).2) x

theorem Consistent.addEach (h : x.Consistent) (es : List IndexEntry) : (x.addEach es).Consistent := by
  unfold SymbolIndex.addEach
  induction es generalizing x with
  | nil => exact h
  | cons e es ih => exact ih (h.add e)

/-- What was there stays, and else the first entry of the key is found. -/
theorem get?_addEach (x : SymbolIndex) (es : List IndexEntry) (key : String) :
    (x.addEach es).get? key = (x.get? key).or (es.find? (·.key == key)) := by
  unfold addEach
  induction es generalizing x with
  | nil => simp
  | cons e es ih =>
    rw [List.foldl_cons, ih, get?_add, List.find?_cons]
    by_cases hkey : e.key = key
    · subst hkey
      cases x.get? e.key <;> simp
    · have hkey' : (e.key == key) = false := by simpa using hkey
      rw [if_neg hkey, hkey']

/-- Sets an entry, or only adds it. -/
def put (x : SymbolIndex) (anew : Bool) (e : IndexEntry) : SymbolIndex :=
  if anew then x.upsert e else (x.add e).2

/-- Puts entries one after the other, each with the mark whether it is set anew. -/
def putEach (x : SymbolIndex) (es : List (Bool × IndexEntry)) : SymbolIndex :=
  es.foldl (fun x e => x.put e.1 e.2) x

theorem get?_put (x : SymbolIndex) (anew : Bool) (e : IndexEntry) (key : String) :
    (x.put anew e).get? key =
      if e.key = key then some (if anew then e else (x.get? key).getD e) else x.get? key := by
  unfold put
  cases anew with
  | false =>
    rw [if_neg Bool.false_ne_true, get?_add]
    by_cases hkey : e.key = key
    · subst hkey
      rfl
    · rw [if_neg hkey, if_neg hkey]
  | true =>
    rw [if_pos rfl, get?_upsert]
    rfl

theorem Consistent.put (h : x.Consistent) (anew : Bool) (e : IndexEntry) :
    (x.put anew e).Consistent := by
  unfold SymbolIndex.put
  split
  · exact h.upsert e
  · exact h.add e

theorem Consistent.putEach (h : x.Consistent) (es : List (Bool × IndexEntry)) :
    (x.putEach es).Consistent := by
  unfold SymbolIndex.putEach
  induction es generalizing x with
  | nil => exact h
  | cons e es ih => exact ih (h.put e.1 e.2)

/-- What is found afterwards was there before or has been put. -/
theorem get?_putEach_cases {es : List (Bool × IndexEntry)} {key : String} {d : IndexEntry}
    (h : (x.putEach es).get? key = some d) :
    x.get? key = some d ∨ ∃ e ∈ es, e.2.key = key ∧ e.2 = d := by
  unfold putEach at h
  induction es generalizing x with
  | nil => exact .inl h
  | cons e es ih =>
    rcases ih h with hd | ⟨e', he', hrest⟩
    · rw [get?_put] at hd
      split at hd
      · rename_i hkey
        obtain rfl := Option.some.inj hd
        split
        · exact .inr ⟨e, List.mem_cons_self, hkey, rfl⟩
        · cases hold : x.get? key with
          | none => exact .inr ⟨e, List.mem_cons_self, hkey, rfl⟩
          | some old => exact .inl rfl
      · exact .inl hd
    · exact .inr ⟨e', List.mem_cons_of_mem _ he', hrest⟩

theorem isSome_putEach {es : List (Bool × IndexEntry)} {key : String} :
    ((x.putEach es).get? key).isSome = true ↔
      (x.get? key).isSome = true ∨ ∃ e ∈ es, e.2.key = key := by
  unfold putEach
  induction es generalizing x with
  | nil => simp
  | cons e es ih =>
    rw [List.foldl_cons, ih, get?_put, List.exists_mem_cons_iff]
    by_cases hkey : e.2.key = key
    · simp [hkey]
    · simp [hkey]

/-- An entry is found under its key when nothing else is put there, and when it is set anew unless the
key is free. -/
theorem get?_putEach_eq {es : List (Bool × IndexEntry)} {key : String} {d : IndexEntry}
    (hall : ∀ e ∈ es, e.2.key = key → e.2 = d ∧ (e.1 = true ∨ x.get? key = none ∨ x.get? key = some d))
    (hthere : x.get? key = some d ∨ ∃ e ∈ es, e.2.key = key) :
    (x.putEach es).get? key = some d := by
  unfold putEach
  induction es generalizing x with
  | nil => exact hthere.resolve_right fun ⟨e, he, _⟩ => List.not_mem_nil he
  | cons e es ih =>
    rw [List.foldl_cons]
    obtain ⟨hhead, htail⟩ := List.forall_mem_cons.mp hall
    by_cases hkey : e.2.key = key
    · have hput : (x.put e.1 e.2).get? key = some d := by
        obtain ⟨rfl, hmode⟩ := hhead hkey
        rw [get?_put, if_pos hkey]
        rcases hmode with hanew | hfree | hsame
        · rw [hanew]
          rfl
        · rw [hfree]
          simp
        · rw [hsame]
          simp
      exact ih (fun e' he' hkey' => ⟨(htail e' he' hkey').1, .inr (.inr hput)⟩) (.inl hput)
    · have hput : (x.put e.1 e.2).get? key = x.get? key := by rw [get?_put, if_neg hkey]
      refine ih (fun e' he' hkey' => ?_) ?_
      · rw [hput]
        exact htail e' he' hkey'
      · rw [hput]
        refine hthere.imp_right ?_
        rw [List.exists_mem_cons_iff]
        exact fun h => h.resolve_left hkey

end SymbolIndex

/-! ## Taking files out -/

namespace Analyzer

variable {x : SymbolIndex}

theorem consistent_dropFiles (h : x.Consistent) (paths : List String) :
    (dropFiles x paths).Consistent := by
  unfold dropFiles
  induction paths generalizing x with
  | nil => exact h
  | cons p paths ih => exact ih (h.invalidate p)

theorem get?_dropFiles (h : x.Consistent) (paths : List String) (key : String) :
    (dropFiles x paths).get? key =
      (x.get? key).filter fun e => !paths.any e.symbol.isDeclaredIn := by
  unfold dropFiles
  induction paths generalizing x with
  | nil =>
    rw [List.foldl_nil]
    cases x.get? key <;> rfl
  | cons p paths ih =>
    rw [List.foldl_cons, ih (h.invalidate p), h.get?_invalidate, Option.filter_filter]
    congr 1
    funext e
    rw [List.any_cons, Bool.not_or, Bool.and_comm]

/-- An entry stays when none of the files is among those of its locations. -/
theorem get?_dropFiles_eq_some (h : x.Consistent) {paths : List String} {key : String}
    {e : IndexEntry} :
    (dropFiles x paths).get? key = some e ↔
      x.get? key = some e ∧ ∀ l ∈ e.symbol.locations, l.filePath ∉ paths := by
  rw [get?_dropFiles h, Option.filter_eq_some_iff]
  refine and_congr_right fun _ => ?_
  simp only [Bool.not_eq_true', List.any_eq_false, Symbol.isDeclaredIn, List.any_eq_true, beq_iff_eq,
    not_exists, not_and]
  exact ⟨fun h l hl hin => h _ hin l hl rfl, fun h p hp l hl heq => h l hl (heq ▸ hp)⟩

end Analyzer

/-! ## Documents -/

/-- The entries of declared types and of their members. -/
def entriesOf (project : String) (ps : List Declared) : List IndexEntry :=
  ps.flatMap fun p => IndexEntry.allOfType project p.space p.type

theorem mem_entriesOf {project : String} {ps : List Declared} {e : IndexEntry} :
    e ∈ entriesOf project ps ↔
      ∃ p ∈ ps, e = .ofType project p.space p.type ∨
        ∃ m ∈ p.type.members, e = .ofMember project p.space p.type m := by
  simp only [entriesOf, IndexEntry.allOfType, List.mem_flatMap, List.mem_cons, List.mem_map]
  refine exists_congr fun p => and_congr_right fun _ => or_congr_right ?_
  exact exists_congr fun m => and_congr_right fun _ => eq_comm

theorem declaresKey_iff (project : String) {ps : List Declared} {key : String} :
    DeclaresKey ps key ↔ ∃ e ∈ entriesOf project ps, e.key = key := by
  simp only [DeclaresKey, mem_entriesOf]
  constructor
  · rintro ⟨p, hp, hkey | hkey⟩
    · exact ⟨_, ⟨p, hp, .inl rfl⟩, hkey⟩
    · obtain ⟨m, hm, hkey⟩ := List.mem_map.mp hkey
      exact ⟨_, ⟨p, hp, .inr ⟨m, hm, rfl⟩⟩, hkey⟩
  · rintro ⟨e, ⟨p, hp, rfl | ⟨m, hm, rfl⟩⟩, hkey⟩
    · exact ⟨p, hp, .inl hkey⟩
    · exact ⟨p, hp, .inr (List.mem_map.mpr ⟨m, hm, hkey⟩)⟩

namespace Workspace

variable {w : Workspace} {options : ExtractOptions} {project : String}

/-- The entries of a document, if it can be analyzed. -/
def entriesFor (w : Workspace) (options : ExtractOptions) (project : String) (j : DocumentJob) :
    List IndexEntry :=
  match (w.analyzeDocument options j).outcome with
  | .ok document => entriesOf project document.declared
  | .error _ => []

theorem mem_entriesFor {j : DocumentJob} {e : IndexEntry} :
    e ∈ w.entriesFor options project j ↔
      ∃ document, (w.analyzeDocument options j).outcome = .ok document ∧
        e ∈ entriesOf project document.declared := by
  unfold entriesFor
  cases (w.analyzeDocument options j).outcome <;> simp

theorem indexNamespaces_eq (x : SymbolIndex) (namespaces : List Namespace) :
    Pass.indexNamespaces project x namespaces = x.addEach (entriesOf project (declaredIn namespaces)) := by
  rw [Pass.indexNamespaces, SymbolIndex.addEach, entriesOf, declaredIn, List.flatMap_assoc]
  simp only [List.flatMap_map]

theorem indexJobs_eq (x : SymbolIndex) (jobs : List DocumentJob) :
    w.indexJobs options project x jobs = x.addEach (jobs.flatMap (w.entriesFor options project)) := by
  rw [indexJobs, SymbolIndex.addEach, List.foldl_flatMap]
  congr 1
  funext x j
  unfold entriesFor
  cases (w.analyzeDocument options j).outcome with
  | error e => rfl
  | ok document => exact indexNamespaces_eq x document.namespaces

theorem consistent_indexJobs {x : SymbolIndex} (h : x.Consistent) (jobs : List DocumentJob) :
    (w.indexJobs options project x jobs).Consistent := by
  rw [indexJobs_eq]
  exact h.addEach _

/-- What is found once documents are analyzed was there before or is an entry of one of them. -/
theorem get?_indexJobs_cases {x : SymbolIndex} {jobs : List DocumentJob} {key : String} {e : IndexEntry}
    (h : (w.indexJobs options project x jobs).get? key = some e) :
    x.get? key = some e ∨ e.key = key ∧ ∃ j ∈ jobs, e ∈ w.entriesFor options project j := by
  rw [indexJobs_eq, SymbolIndex.get?_addEach] at h
  rcases Option.or_eq_some_iff.mp h with hold | ⟨-, hfound⟩
  · exact .inl hold
  · have hkey := List.find?_some hfound
    exact .inr ⟨beq_iff_eq.mp hkey, List.mem_flatMap.mp (List.mem_of_find?_eq_some hfound)⟩

theorem isSome_indexJobs {x : SymbolIndex} {key : String} (jobs : List DocumentJob)
    (h : (x.get? key).isSome = true) : ((w.indexJobs options project x jobs).get? key).isSome = true := by
  rw [indexJobs_eq, SymbolIndex.get?_addEach, Option.isSome_or, h]
  rfl

end Workspace

/-! ## Merged types -/

/-- The entries of merged types and their members, with the marks of those that are set anew. -/
def syncEntries (project : String) (m : MergedNamespaces) : List (Bool × IndexEntry) :=
  m.types.flatMap fun p =>
    (m.repeated.contains p.key, .ofType project p.space p.type) ::
      p.type.members.map fun mem => (false, .ofMember project p.space p.type mem)

theorem mem_syncEntries {project : String} {m : MergedNamespaces} {e : Bool × IndexEntry} :
    e ∈ syncEntries project m ↔
      ∃ p ∈ m.types, e = (m.repeated.contains p.key, .ofType project p.space p.type) ∨
        ∃ mem ∈ p.type.members, e = (false, .ofMember project p.space p.type mem) := by
  simp only [syncEntries, List.mem_flatMap, List.mem_cons, List.mem_map]
  refine exists_congr fun p => and_congr_right fun _ => or_congr_right ?_
  exact exists_congr fun m => and_congr_right fun _ => eq_comm

theorem syncIndex_eq (project : String) (m : MergedNamespaces) (x : SymbolIndex) :
    syncIndex project m x = x.putEach (syncEntries project m) := by
  have htypes : (m.namespaces.flatMap fun n => n.types.map fun t => (n.name, t)) =
      m.types.map fun p => (p.space, p.type) := by
    simp only [MergedNamespaces.types, declaredIn, List.map_flatMap, List.map_map]
    rfl
  rw [syncIndex, htypes, List.foldl_map, SymbolIndex.putEach, syncEntries, List.foldl_flatMap]
  congr 1
  funext x p
  rw [List.foldl_cons, List.foldl_map]
  simp only [List.foldl_map]
  rfl

theorem syncEntries_snd (project : String) (m : MergedNamespaces) :
    (syncEntries project m).map (·.2) = entriesOf project m.types := by
  simp only [syncEntries, entriesOf, List.map_flatMap, IndexEntry.allOfType, List.map_cons,
    List.map_map]
  rfl

theorem exists_syncEntries_iff {project : String} {m : MergedNamespaces} {key : String} :
    (∃ e ∈ syncEntries project m, e.2.key = key) ↔ DeclaresKey m.types key := by
  rw [declaresKey_iff project, ← syncEntries_snd]
  simp only [List.mem_map]
  constructor
  · rintro ⟨e, he, hkey⟩
    exact ⟨e.2, ⟨e, he, rfl⟩, hkey⟩
  · rintro ⟨_, ⟨e, he, rfl⟩, hkey⟩
    exact ⟨e, he, hkey⟩

/-! ## The keys after a pass -/

/-- The types of a project, with the names of their namespaces. -/
def Project.declared (p : Project) : List Declared :=
  declaredIn p.namespaces

namespace Analyzer

/-- The merged declarations of the documents that a project has. -/
def mergedOf (kept : Table AnalyzedDocument) : MergedNamespaces :=
  .ofDocuments (kept.values.mergeSort fun a b => a.relativePath ≤ b.relativePath)

theorem merges_mergedOf (kept : Table AnalyzedDocument) :
    ∃ ps, (mergedOf kept).Merges ps ∧ ps.Perm (declaredBy kept.values) :=
  ⟨_, MergedNamespaces.merges_ofDocuments _, (List.mergeSort_perm _ _).flatMap_right _⟩

variable {a : Analyzer} {d : Disk} {source : ProjectSource} {project root : String}
  {manifest : Manifest} {kept : Table AnalyzedDocument} {x : SymbolIndex}

theorem declared_assemble :
    (a.assemble d source project root manifest kept x).1.declared = (mergedOf kept).types := rfl

theorem projectFilePath_assemble :
    (a.assemble d source project root manifest kept x).1.projectFilePath = project := rfl

theorem index_assemble :
    (a.assemble d source project root manifest kept x).2.index =
      x.putEach (syncEntries project (mergedOf kept)) :=
  syncIndex_eq project (mergedOf kept) x

theorem declaresKey_mergedOf {key : String} :
    DeclaresKey (mergedOf kept).types key ↔ DeclaresKey (declaredBy kept.values) key := by
  obtain ⟨ps, hmerges, hperm⟩ := merges_mergedOf kept
  rw [hmerges.declaresKey_iff]
  exact exists_congr fun p => and_congr_left fun _ => hperm.mem_iff

/-- A changed document that can be analyzed is among those the project has after the pass. -/
theorem get?_kept_of_changed {w : Workspace} {options : ExtractOptions}
    {previous : Table AnalyzedDocument} {stamped : Stamped}
    (hnodup : (stamped.jobs.map fun j => Path.tidy j.path).Nodup) {j : DocumentJob}
    (hj : j ∈ (Plan.ofStamped previous stamped).changed) {document : AnalyzedDocument}
    (houtcome : (w.analyzeDocument options j).outcome = .ok document) :
    (w.kept options previous stamped.jobs).get? (Path.tidy j.path) = some document := by
  obtain ⟨hjob, hchanged⟩ := Plan.mem_changed.mp hj
  exact (Workspace.get?_kept hnodup).mpr
    ⟨j, hjob, rfl, Workspace.resultFor?_eq_some.mpr (.inr ⟨hchanged, houtcome⟩)⟩

/-- After a pass that succeeds, the index holds the keys of the project, and those it held before in
entries that no file out of date belongs to. -/
theorem isSome_after_pass {w : Workspace} {order : List DocumentJob}
    (hindex : a.index.Consistent) (horder : order ⊆ (a.planFor w.disk project root source).changed)
    (key : String) :
    let plan := a.planFor w.disk project root source
    let built := a.assemble w.disk source project root manifest
      (w.kept a.options (a.documentsOf project) plan.stamped.jobs)
      (w.indexJobs a.options project (dropFiles a.index plan.stale) order)
    (built.2.index.get? key).isSome = true ↔
      (∃ e, a.index.get? key = some e ∧ ∀ l ∈ e.symbol.locations, l.filePath ∉ plan.stale) ∨
        DeclaresKey built.1.declared key := by
  intro plan built
  rw [index_assemble, SymbolIndex.isSome_putEach, exists_syncEntries_iff, declared_assemble]
  have hsurvives : ((dropFiles a.index plan.stale).get? key).isSome = true ↔
      ∃ e, a.index.get? key = some e ∧ ∀ l ∈ e.symbol.locations, l.filePath ∉ plan.stale := by
    rw [Option.isSome_iff_exists]
    exact exists_congr fun e => get?_dropFiles_eq_some hindex
  rw [← hsurvives]
  constructor
  · rintro (hsome | hkey)
    · obtain ⟨e, he⟩ := Option.isSome_iff_exists.mp hsome
      rcases Workspace.get?_indexJobs_cases he with hold | ⟨hself, j, hj, hentry⟩
      · exact .inl (Option.isSome_iff_exists.mpr ⟨e, hold⟩)
      · obtain ⟨document, houtcome, hentry⟩ := Workspace.mem_entriesFor.mp hentry
        have hkept := get?_kept_of_changed Stamped.jobs_nodup (horder hj) houtcome
        obtain ⟨p, hp, hdeclares⟩ := (declaresKey_iff project).mpr ⟨e, hentry, hself⟩
        refine .inr (declaresKey_mergedOf.mpr ⟨p, mem_declaredBy.mpr ⟨document, ?_, hp⟩, hdeclares⟩)
        exact (Workspace.kept_ascending _).mem_values_iff.mpr ⟨_, hkept⟩
    · exact .inr hkey
  · rintro (hsome | hkey)
    · exact .inl (Workspace.isSome_indexJobs order hsome)
    · exact .inr hkey

end Analyzer

end SolutionAtlas
