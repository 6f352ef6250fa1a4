-- SUMMARY: What an index may hold between and during the passes over a project.
import Mathlib
import SolutionAtlas.Proofs.Analysis.PassIndex
import SolutionAtlas.Proofs.Disk.Places

/-!
# Indexes that match a project

Passes that are given up leave holes in an index, which the next pass fills. `IndexMatches` therefore
says nothing of what is in the index, only that what is there fits the documents: entries are located
in documents that declare them, and the entry of a type that has one declaration there is that of this
declaration. Going over changed documents, giving up and setting merged types all keep it, and once the
merged types are set, the index has all that the documents declare.
-/

namespace SolutionAtlas

open CSharp (IsTypeId)

/-! ## Providers -/

/-- What an analyzer may rely on: documents are listed in plain spelling, and the ids in outlines tell
types from members. -/
structure Provider.Lawful (p : Provider) : Prop where
  plain : ∀ (d : Disk) (manifest : Place) (source : ProjectSource), d.FilesNamed → manifest.Named →
    p.loadProject d manifest.path = .ok source → ∀ path ∈ source.documents, Path.tidy path = path
  identified : ∀ path text outline,
    (p.parseDocument path text).result = .ok outline → outline.WellIdentified

theorem Provider.workspace_lawful : Provider.workspace.Lawful where
  plain := fun _ _ _ hd hmanifest hsource _ hpath => tidy_of_loadFromDisk hd hmanifest hsource hpath
  identified := by
    intro path text outline h
    cases h
    exact CSharp.Outline.ofSource_wellIdentified text

/-! ## Remembered documents -/

/-- Documents stand under their paths, and what they declare lies in them. -/
structure RemembersSoundly (documents : Table AnalyzedDocument) : Prop where
  ascending : documents.Ascending
  path : ∀ key document, documents.get? key = some document → document.path = key
  sound : ∀ key document, documents.get? key = some document → document.Sound

theorem RemembersSoundly.nil : RemembersSoundly [] where
  ascending := .nil
  path := by
    intro _ _ h
    cases h
  sound := by
    intro _ _ h
    cases h

/-- The documents that an entry is located in. -/
def locatedIn (e : IndexEntry) (documents : Table AnalyzedDocument) : Table AnalyzedDocument :=
  documents.filter fun d => e.symbol.isDeclaredIn d.1

/-- The entry is that of a declaration in the documents. -/
def IsDeclaration (project : String) (documents : Table AnalyzedDocument) (e : IndexEntry) : Prop :=
  ∃ file document p, documents.get? file = some document ∧ p ∈ document.declared ∧
    e = .ofType project p.space p.type

/-- Two entries have the same key and say the same of their symbol, its locations included. -/
structure IndexEntry.Agrees (e e' : IndexEntry) : Prop where
  key : e.key = e'.key
  symbol : e.symbol = e'.symbol
  detail : e.detail = e'.detail

/-- The entry says what a declaration of a member in the documents says. -/
def IsMemberDeclaration (project : String) (documents : Table AnalyzedDocument) (e : IndexEntry) : Prop :=
  ∃ file document p m, documents.get? file = some document ∧ p ∈ document.declared ∧
    m ∈ p.type.members ∧ e.Agrees (.ofMember project p.space p.type m)

/-- An entry fits the documents of a project when it is located in documents that declare its key. That
of a type belongs to one declaration, or the documents it is located in have several; that of a member
always belongs to one. -/
structure IndexEntry.Fits (project : String) (documents : Table AnalyzedDocument) (e : IndexEntry) :
    Prop where
  located : e.symbol.locations ≠ []
  declares : ∀ l ∈ e.symbol.locations,
    ∃ document, documents.get? l.filePath = some document ∧ DeclaresKey document.declared e.key
  types : IsTypeId e.key → IsDeclaration project documents e ∨
    2 ≤ (partsOf e.key (declaredBy (locatedIn e documents).values)).length
  members : ¬IsTypeId e.key → IsMemberDeclaration project documents e

/-- What is in the index fits the documents of a project. -/
structure IndexMatches (project : String) (documents : Table AnalyzedDocument) (x : SymbolIndex) :
    Prop where
  consistent : x.Consistent
  fits : ∀ key e, x.get? key = some e → e.Fits project documents

theorem IndexMatches.empty (project : String) (documents : Table AnalyzedDocument) :
    IndexMatches project documents .empty where
  consistent := .empty
  fits := by
    intro _ _ h
    cases h

/-- What the index knows is declared. -/
theorem IndexMatches.declaresKey {project : String} {documents : Table AnalyzedDocument}
    {x : SymbolIndex} (h : IndexMatches project documents x) (hascending : documents.Ascending)
    {key : String} {e : IndexEntry} (he : x.get? key = some e) :
    DeclaresKey (declaredBy documents.values) key := by
  have hfits := h.fits key e he
  obtain ⟨l, hl⟩ := List.exists_mem_of_ne_nil _ hfits.located
  obtain ⟨document, hdocument, p, hp, hkey⟩ := hfits.declares l hl
  rw [h.consistent.keyed key e he] at hkey
  exact ⟨p, mem_declaredBy.mpr ⟨document, hascending.mem_values_iff.mpr ⟨_, hdocument⟩, hp⟩, hkey⟩

theorem declaredBy_sublist {ds es : List AnalyzedDocument} (h : ds.Sublist es) :
    (declaredBy ds).Sublist (declaredBy es) := by
  unfold declaredBy
  induction h with
  | slnil => exact List.Sublist.slnil
  | cons d _ ih =>
    rw [List.flatMap_cons]
    exact ih.trans (List.sublist_append_right _ _)
  | cons_cons d _ ih =>
    rw [List.flatMap_cons, List.flatMap_cons]
    exact (List.Sublist.refl _).append ih

theorem length_partsOf_locatedIn_le (key : String) (e : IndexEntry)
    (documents : Table AnalyzedDocument) :
    (partsOf key (declaredBy (locatedIn e documents).values)).length ≤
      (partsOf key (declaredBy documents.values)).length :=
  ((declaredBy_sublist (List.filter_sublist.map _)).filter _).length_le

/-- An entry that is located in every document with a part of its type misses none of the parts. -/
theorem partsOf_locatedIn {key : String} {e : IndexEntry} {documents : Table AnalyzedDocument}
    (h : ∀ d ∈ documents, ∀ p ∈ d.2.declared, p.key = key → e.symbol.isDeclaredIn d.1 = true) :
    partsOf key (declaredBy (locatedIn e documents).values) = partsOf key (declaredBy documents.values) := by
  unfold locatedIn
  induction documents with
  | nil => rfl
  | cons d ds ih =>
    have ih' := ih fun d' hd' => h d' (List.mem_cons_of_mem _ hd')
    rw [List.filter_cons]
    by_cases hd : e.symbol.isDeclaredIn d.1 = true
    · rw [if_pos hd]
      simp only [Table.values, declaredBy, List.map_cons, List.flatMap_cons, partsOf,
        List.filter_append] at ih' ⊢
      rw [ih']
    · have hnone : partsOf key d.2.declared = [] := by
        refine List.filter_eq_nil_iff.mpr fun p hp hkey => hd ?_
        exact h d List.mem_cons_self p hp (beq_iff_eq.mp hkey)
      rw [if_neg hd]
      simp only [Table.values, declaredBy, List.map_cons, List.flatMap_cons, partsOf,
        List.filter_append] at ih' hnone ⊢
      rw [ih', hnone, List.nil_append]

/-! ## Documents of a pass -/

/-- Every document is listed once and in plain spelling. -/
structure Stamped.Plain (stamped : Stamped) : Prop where
  nodup : (stamped.jobs.map fun j => Path.tidy j.path).Nodup
  tidy : ∀ j ∈ stamped.jobs, Path.tidy j.path = j.path

/-- What documents declare lies in them, however they are parsed. -/
def Workspace.ParsesSoundly (w : Workspace) (options : ExtractOptions) : Prop :=
  ∀ j document, (w.analyzeDocument options j).outcome = .ok document → document.Sound

theorem Provider.Lawful.parsesSoundly {w : Workspace} (h : w.provider.Lawful)
    (options : ExtractOptions) : w.ParsesSoundly options := by
  intro j document houtcome
  obtain ⟨text, outline, hparse, rfl⟩ := Workspace.outcome_ok houtcome
  exact AnalyzedDocument.ofOutline_sound (h.identified _ _ _ hparse) j options

section Kept

variable {w : Workspace} {options : ExtractOptions} {previous : Table AnalyzedDocument}
  {stamped : Stamped}

theorem Stamped.Plain.get?_kept (hs : stamped.Plain) {key : String} {document : AnalyzedDocument} :
    (w.kept options previous stamped.jobs).get? key = some document ↔
      ∃ j ∈ stamped.jobs, j.path = key ∧ w.resultFor? options previous j = some document := by
  rw [Workspace.get?_kept hs.nodup]
  refine exists_congr fun j => and_congr_right fun hj => ?_
  rw [hs.tidy j hj]

namespace RemembersSoundly

theorem reusable?_eq_some (h : RemembersSoundly previous) {j : DocumentJob}
    (hplain : Path.tidy j.path = j.path) {document : AnalyzedDocument} :
    reusable? previous j = some document ↔
      previous.get? j.path = some document ∧ document.modifiedMs = j.modifiedMs := by
  have hsame {old : AnalyzedDocument} (hold : previous.get? j.path = some old) :
      { old with path := j.path } = old := by rw [← h.path _ _ hold]
  rw [SolutionAtlas.reusable?_eq_some, hplain]
  constructor
  · rintro ⟨old, hold, htime, rfl⟩
    rw [hsame hold]
    exact ⟨hold, htime⟩
  · rintro ⟨hold, htime⟩
    exact ⟨document, hold, htime, hsame hold⟩

/-- What a project has after a pass is remembered soundly again. -/
theorem kept (h : RemembersSoundly previous) (hw : w.ParsesSoundly options) (hs : stamped.Plain) :
    RemembersSoundly (w.kept options previous stamped.jobs) where
  ascending := Workspace.kept_ascending _
  path := by
    intro key document hdocument
    obtain ⟨j, hj, rfl, hresult⟩ := hs.get?_kept.mp hdocument
    rcases Workspace.resultFor?_eq_some.mp hresult with hreused | ⟨-, houtcome⟩
    · exact h.path _ _ ((h.reusable?_eq_some (hs.tidy j hj)).mp hreused).1
    · exact Workspace.path_of_outcome houtcome
  sound := by
    intro key document hdocument
    obtain ⟨j, hj, rfl, hresult⟩ := hs.get?_kept.mp hdocument
    rcases Workspace.resultFor?_eq_some.mp hresult with hreused | ⟨-, houtcome⟩
    · exact h.sound _ _ ((h.reusable?_eq_some (hs.tidy j hj)).mp hreused).1
    · exact hw j document houtcome

/-- A document that is not out of date is taken over as it is. -/
theorem get?_kept (h : RemembersSoundly previous) (hs : stamped.Plain) {file : String}
    {document : AnalyzedDocument} (hdocument : previous.get? file = some document)
    (hfresh : file ∉ (Plan.ofStamped previous stamped).stale) :
    (w.kept options previous stamped.jobs).get? file = some document := by
  rw [Plan.stale, List.mem_append, not_or] at hfresh
  obtain ⟨hthere, hsame⟩ := hfresh
  -- It is listed still, since it is not gone, and it has kept its time of change.
  obtain ⟨j, hj, rfl⟩ : ∃ j ∈ stamped.jobs, j.path = file := by
    by_contra hnone
    refine hthere (Plan.mem_gone.mpr ⟨_, Table.mem_of_get? hdocument, fun j hj heq => ?_, h.path _ _ hdocument⟩)
    exact hnone ⟨j, hj, (hs.tidy j hj).symm.trans heq⟩
  cases hreused : reusable? previous j with
  | none => exact absurd (List.mem_map_of_mem (Plan.mem_changed.mpr ⟨hj, hreused⟩)) hsame
  | some old =>
    obtain ⟨hold, -⟩ := (h.reusable?_eq_some (hs.tidy j hj)).mp hreused
    obtain rfl : old = document := Option.some.inj (hold.symm.trans hdocument)
    exact hs.get?_kept.mpr ⟨j, hj, rfl, Workspace.resultFor?_eq_some.mpr (.inl hreused)⟩

end RemembersSoundly

end Kept

/-! ## Entries that fit -/

namespace IndexEntry.Fits

variable {project : String} {documents documents' : Table AnalyzedDocument} {e : IndexEntry}

/-- An entry keeps fitting as long as the documents it is located in stay. -/
theorem of_same (h : e.Fits project documents) (hold : RemembersSoundly documents)
    (hnew : documents'.Ascending)
    (hsame : ∀ l ∈ e.symbol.locations, documents'.get? l.filePath = documents.get? l.filePath) :
    e.Fits project documents' where
  located := h.located
  declares := by
    intro l hl
    rw [hsame l hl]
    exact h.declares l hl
  types := by
    intro hid
    refine (h.types hid).imp ?_ fun hparts => ?_
    · rintro ⟨file, document, p, hdocument, hp, rfl⟩
      obtain ⟨l, hl⟩ := List.exists_mem_of_ne_nil _ h.located
      have hfile : l.filePath = file :=
        (((hold.sound _ _ hdocument).type_liesIn p hp).only l hl).trans (hold.path _ _ hdocument)
      refine ⟨file, document, p, ?_, hp, rfl⟩
      rw [← hfile, hsame l hl, hfile]
      exact hdocument
    · -- Both tables agree on the files of the entry, so they have the same documents of it.
      have hlocated : locatedIn e documents' = locatedIn e documents := by
        unfold locatedIn
        refine (hnew.filter _).ext (hold.ascending.filter _) fun file => ?_
        rw [Table.get?_filter_keys, Table.get?_filter_keys]
        split
        · rename_i hin
          obtain ⟨l, hl, heq⟩ := List.any_eq_true.mp hin
          rw [← beq_iff_eq.mp heq]
          exact hsame l hl
        · rfl
      rw [hlocated]
      exact hparts
  members := by
    intro hid
    obtain ⟨file, document, p, m, hdocument, hp, hm, hagrees⟩ := h.members hid
    obtain ⟨l, hl⟩ := List.exists_mem_of_ne_nil _ h.located
    have hin : l ∈ m.symbol.locations := by
      have hsymbol : e.symbol = m.symbol := hagrees.symbol
      rwa [← hsymbol]
    have hfile : l.filePath = file :=
      (((hold.sound _ _ hdocument).member_liesIn p hp m hm).only l hin).trans (hold.path _ _ hdocument)
    refine ⟨file, document, p, m, ?_, hp, hm, hagrees⟩
    rw [← hfile, hsame l hl, hfile]
    exact hdocument

/-- The entries of a document fit, and are located in it. -/
theorem of_document (h : RemembersSoundly documents) {file : String} {document : AnalyzedDocument}
    (hdocument : documents.get? file = some document) (he : e ∈ entriesOf project document.declared) :
    e.Fits project documents ∧ e.symbol.LiesIn file := by
  have hsound := h.sound _ _ hdocument
  have hpath := h.path _ _ hdocument
  have hdeclares : DeclaresKey document.declared e.key := (declaresKey_iff project).mpr ⟨e, he, rfl⟩
  have hlies : e.symbol.LiesIn file := by
    rw [← hpath]
    obtain ⟨p, hp, rfl | ⟨m, hm, rfl⟩⟩ := mem_entriesOf.mp he
    · exact hsound.type_liesIn p hp
    · exact hsound.member_liesIn p hp m hm
  refine ⟨⟨hlies.located, fun l hl => ⟨document, ?_, hdeclares⟩, fun hid => .inl ?_, fun hid => ?_⟩, hlies⟩
  · rw [hlies.only l hl]
    exact hdocument
  · obtain ⟨p, hp, rfl | ⟨m, hm, rfl⟩⟩ := mem_entriesOf.mp he
    · exact ⟨file, document, p, hdocument, hp, rfl⟩
    · exact absurd hid (hsound.memberId p hp m hm)
  · obtain ⟨p, hp, rfl | ⟨m, hm, rfl⟩⟩ := mem_entriesOf.mp he
    · exact absurd (hsound.typeId p hp) hid
    · exact ⟨file, document, p, m, hdocument, hp, hm, rfl, rfl, rfl⟩

end IndexEntry.Fits

/-! ## Merged types -/

section Merged

variable {project : String} {documents : Table AnalyzedDocument} {m : MergedNamespaces}
  {ps : List Declared} {x : SymbolIndex}

/-- The parts of a merged type are declared in documents of the project. -/
theorem RemembersSoundly.exists_part (h : RemembersSoundly documents)
    (hperm : ps.Perm (declaredBy documents.values)) {key : String} {q : Declared}
    (hq : q ∈ partsOf key ps) : q.key = key ∧ ∃ file document, documents.get? file = some document ∧
      q ∈ document.declared := by
  obtain ⟨hin, hkey⟩ := List.mem_filter.mp hq
  obtain ⟨document, hdocument, hdeclared⟩ := mem_declaredBy.mp (hperm.mem_iff.mp hin)
  obtain ⟨file, hfile⟩ := h.ascending.mem_values_iff.mp hdocument
  exact ⟨beq_iff_eq.mp hkey, file, document, hfile, hdeclared⟩

theorem RemembersSoundly.mem_partsOf (h : RemembersSoundly documents)
    (hperm : ps.Perm (declaredBy documents.values)) {file : String} {document : AnalyzedDocument}
    (hdocument : documents.get? file = some document) {q : Declared} (hq : q ∈ document.declared) :
    q ∈ partsOf q.key ps := by
  refine List.mem_filter.mpr ⟨hperm.mem_iff.mpr ?_, beq_self_eq_true _⟩
  exact mem_declaredBy.mpr ⟨document, h.ascending.mem_values_iff.mpr ⟨_, hdocument⟩, hq⟩

theorem length_partsOf_perm (hperm : ps.Perm (declaredBy documents.values)) (key : String) :
    (partsOf key ps).length = (partsOf key (declaredBy documents.values)).length :=
  (hperm.filter _).length_eq

theorem RemembersSoundly.isTypeId_of_merged (h : RemembersSoundly documents) (hmerges : m.Merges ps)
    (hperm : ps.Perm (declaredBy documents.values)) {p : Declared} (hp : p ∈ m.types) :
    IsTypeId p.key := by
  obtain ⟨q, hq⟩ := List.exists_mem_of_ne_nil _ (hmerges.partsOf_types_ne_nil hp)
  obtain ⟨hkey, file, document, hdocument, hdeclared⟩ := h.exists_part hperm hq
  exact hkey ▸ (h.sound _ _ hdocument).typeId q hdeclared

/-- The entry of a merged type fits. -/
theorem IndexEntry.Fits.of_merged (h : RemembersSoundly documents) (hmerges : m.Merges ps)
    (hperm : ps.Perm (declaredBy documents.values)) {p : Declared} (hp : p ∈ m.types) :
    (IndexEntry.ofType project p.space p.type).Fits project documents := by
  have hmerged := (hmerges.mem_types p).mp hp
  have hunites := unites_of_mergedParts? hmerged
  have hpart (l) (hl : l ∈ p.type.symbol.locations) : ∃ q document, q.key = p.key ∧
      documents.get? l.filePath = some document ∧ q ∈ document.declared := by
    obtain ⟨q, hq, hlq⟩ := (hunites.locations l).mp hl
    obtain ⟨hkey, file, document, hdocument, hdeclared⟩ := h.exists_part hperm hq
    refine ⟨q, document, hkey, ?_, hdeclared⟩
    rw [((h.sound _ _ hdocument).type_liesIn q hdeclared).only l hlq, h.path _ _ hdocument]
    exact hdocument
  have hlocations (q) (hq : q ∈ partsOf p.key ps) : q.type.symbol.locations ⊆ p.type.symbol.locations :=
    fun l hl => (hunites.locations l).mpr ⟨q, hq, hl⟩
  refine ⟨?_, fun l hl => ?_, fun _ => ?_, fun hid => absurd (h.isTypeId_of_merged hmerges hperm hp) hid⟩
  · obtain ⟨q, hq⟩ := List.exists_mem_of_ne_nil _ (hmerges.partsOf_types_ne_nil hp)
    obtain ⟨-, file, document, hdocument, hdeclared⟩ := h.exists_part hperm hq
    obtain ⟨l, hl⟩ :=
      List.exists_mem_of_ne_nil _ ((h.sound _ _ hdocument).type_liesIn q hdeclared).located
    exact List.ne_nil_of_mem (hlocations q hq hl)
  · obtain ⟨q, document, hkey, hdocument, hdeclared⟩ := hpart l hl
    exact ⟨document, hdocument, q, hdeclared, .inl hkey⟩
  · by_cases hseveral : 2 ≤ (partsOf p.key ps).length
    · -- The merged type is located in every document with a part of it, so no part is missing there.
      refine .inr ?_
      rw [partsOf_locatedIn]
      · exact length_partsOf_perm hperm p.key ▸ hseveral
      · rintro ⟨file, document⟩ hin q hdeclared hkey
        have hdocument := h.ascending.get?_of_mem hin
        have hlies := (h.sound _ _ hdocument).type_liesIn q hdeclared
        obtain ⟨l, hl⟩ := List.exists_mem_of_ne_nil _ hlies.located
        have hsame : q.key = p.key := hkey
        have hq : q ∈ partsOf p.key ps := hsame ▸ h.mem_partsOf hperm hdocument hdeclared
        refine List.any_eq_true.mpr ⟨l, hlocations q hq hl, beq_iff_eq.mpr ?_⟩
        rw [hlies.only l hl]
        exact h.path _ _ hdocument
    · have hparts := hmerges.partsOf_eq_singleton hp (Nat.lt_of_not_le hseveral)
      obtain ⟨-, file, document, hdocument, hdeclared⟩ :=
        h.exists_part hperm (hparts ▸ List.mem_singleton_self p)
      exact .inl ⟨file, document, p, hdocument, hdeclared, rfl⟩

/-- The members of a merged type are declared in documents of the project. -/
theorem RemembersSoundly.exists_member (h : RemembersSoundly documents) (hmerges : m.Merges ps)
    (hperm : ps.Perm (declaredBy documents.values)) {p : Declared} (hp : p ∈ m.types) {member : Member}
    (hmember : member ∈ p.type.members) : ∃ file document, documents.get? file = some document ∧
      ∃ q ∈ document.declared, q.key = p.key ∧ member ∈ q.type.members := by
  obtain ⟨q, hq, hin⟩ := member_of_mergedParts? ((hmerges.mem_types p).mp hp) hmember
  obtain ⟨hkey, file, document, hdocument, hdeclared⟩ := h.exists_part hperm hq
  exact ⟨file, document, hdocument, q, hdeclared, hkey, hin⟩

theorem RemembersSoundly.not_isTypeId_of_merged (h : RemembersSoundly documents) (hmerges : m.Merges ps)
    (hperm : ps.Perm (declaredBy documents.values)) {p : Declared} (hp : p ∈ m.types) {member : Member}
    (hmember : member ∈ p.type.members) : ¬IsTypeId member.symbol.key := by
  obtain ⟨file, document, hdocument, q, hdeclared, -, hin⟩ := h.exists_member hmerges hperm hp hmember
  exact (h.sound _ _ hdocument).memberId q hdeclared member hin

/-- The entries of the members of a merged type fit. -/
theorem IndexEntry.Fits.of_mergedMember (h : RemembersSoundly documents) (hmerges : m.Merges ps)
    (hperm : ps.Perm (declaredBy documents.values)) {p : Declared} (hp : p ∈ m.types) {member : Member}
    (hmember : member ∈ p.type.members) :
    (IndexEntry.ofMember project p.space p.type member).Fits project documents := by
  obtain ⟨file, document, hdocument, q, hdeclared, hkey, hin⟩ := h.exists_member hmerges hperm hp hmember
  have hlies := (h.sound _ _ hdocument).member_liesIn q hdeclared member hin
  have hid := h.not_isTypeId_of_merged hmerges hperm hp hmember
  refine ⟨hlies.located, fun l hl => ⟨document, ?_, q, hdeclared, .inr ?_⟩, fun hself => absurd hself hid,
    fun _ => ⟨file, document, q, member, hdocument, hdeclared, hin, rfl, rfl, ?_⟩⟩
  · rw [hlies.only l hl, h.path _ _ hdocument]
    exact hdocument
  · exact List.mem_map_of_mem hin
  · have hsame : q.type.symbol.key = p.type.symbol.key := hkey
    simp only [IndexEntry.ofMember, hsame]

end Merged

/-! ## The index of a pass -/

namespace IndexMatches

section Changed

variable {w : Workspace} {options : ExtractOptions} {previous : Table AnalyzedDocument}
  {stamped : Stamped} {project : String} {x : SymbolIndex} {done : List DocumentJob}

/-- What a pass adds for a changed document fits the documents after it, and is located in it. -/
theorem fits_of_changed (hold : RemembersSoundly previous) (hw : w.ParsesSoundly options)
    (hs : stamped.Plain) {j : DocumentJob} (hj : j ∈ (Plan.ofStamped previous stamped).changed)
    {e : IndexEntry} (he : e ∈ w.entriesFor options project j) :
    e.Fits project (w.kept options previous stamped.jobs) ∧ e.symbol.LiesIn j.path := by
  obtain ⟨document, houtcome, hentry⟩ := Workspace.mem_entriesFor.mp he
  have hdocument := Analyzer.get?_kept_of_changed hs.nodup hj houtcome
  rw [hs.tidy j (Plan.mem_changed.mp hj).1] at hdocument
  exact IndexEntry.Fits.of_document (hold.kept hw hs) hdocument hentry

/-- While a pass goes over changed documents, the index fits the documents after it. -/
theorem indexJobs (h : IndexMatches project previous x) (hold : RemembersSoundly previous)
    (hw : w.ParsesSoundly options) (hs : stamped.Plain)
    (hdone : done ⊆ (Plan.ofStamped previous stamped).changed) :
    IndexMatches project (w.kept options previous stamped.jobs)
      (w.indexJobs options project (Analyzer.dropFiles x (Plan.ofStamped previous stamped).stale) done)
    where
  consistent := Workspace.consistent_indexJobs (Analyzer.consistent_dropFiles h.consistent _) done
  fits := by
    intro key e he
    rcases Workspace.get?_indexJobs_cases he with hbefore | ⟨-, j, hj, hentry⟩
    · obtain ⟨hget, hfresh⟩ := (Analyzer.get?_dropFiles_eq_some h.consistent).mp hbefore
      have hfits := h.fits key e hget
      refine hfits.of_same hold (Workspace.kept_ascending _) fun l hl => ?_
      obtain ⟨document, hdocument, -⟩ := hfits.declares l hl
      rw [hdocument]
      exact hold.get?_kept hs hdocument (hfresh l hl)
    · exact (fits_of_changed hold hw hs (hdone hj) hentry).1

/-- A pass that is given up takes out again what it has added, so what is left was there before. -/
theorem givenUp (h : IndexMatches project previous x) (hold : RemembersSoundly previous)
    (hw : w.ParsesSoundly options) (hs : stamped.Plain)
    (hdone : done ⊆ (Plan.ofStamped previous stamped).changed) :
    IndexMatches project previous
      (Analyzer.dropFiles
        (w.indexJobs options project (Analyzer.dropFiles x (Plan.ofStamped previous stamped).stale) done)
        (Plan.ofStamped previous stamped).changedPaths) := by
  have hadded : (w.indexJobs options project
      (Analyzer.dropFiles x (Plan.ofStamped previous stamped).stale) done).Consistent :=
    Workspace.consistent_indexJobs (Analyzer.consistent_dropFiles h.consistent _) done
  refine ⟨Analyzer.consistent_dropFiles hadded _, ?_⟩
  intro key e he
  obtain ⟨hget, hunchanged⟩ := (Analyzer.get?_dropFiles_eq_some hadded).mp he
  rcases Workspace.get?_indexJobs_cases hget with hbefore | ⟨-, j, hj, hentry⟩
  · exact h.fits key e ((Analyzer.get?_dropFiles_eq_some h.consistent).mp hbefore).1
  · -- What was added for a changed document is located there, and that file is taken out.
    obtain ⟨hfits, hlies⟩ := fits_of_changed hold hw hs (hdone hj) hentry
    obtain ⟨l, hl⟩ := List.exists_mem_of_ne_nil _ hfits.located
    refine absurd ?_ (hunchanged l hl)
    rw [hlies.only l hl]
    exact List.mem_map_of_mem (hdone hj)

end Changed

section Synced

variable {project : String} {documents : Table AnalyzedDocument} {m : MergedNamespaces}
  {ps : List Declared} {x : SymbolIndex}

/-- Once the merged types are set, the index still fits. -/
theorem putEach (h : IndexMatches project documents x) (hold : RemembersSoundly documents)
    (hmerges : m.Merges ps) (hperm : ps.Perm (declaredBy documents.values)) :
    IndexMatches project documents (x.putEach (syncEntries project m)) where
  consistent := h.consistent.putEach _
  fits := by
    intro key e he
    rcases SymbolIndex.get?_putEach_cases he with hbefore | ⟨⟨_, _⟩, hput, -, rfl⟩
    · exact h.fits key e hbefore
    · obtain ⟨p, hp, heq | ⟨member, hmember, heq⟩⟩ := mem_syncEntries.mp hput
      · cases heq
        exact .of_merged hold hmerges hperm hp
      · cases heq
        exact .of_mergedMember hold hmerges hperm hp hmember

/-- Once the merged types are set, the index has the keys of the documents and no others. -/
theorem contains_putEach (h : IndexMatches project documents x) (hold : RemembersSoundly documents)
    (hmerges : m.Merges ps) (hperm : ps.Perm (declaredBy documents.values)) (key : String) :
    (x.putEach (syncEntries project m)).contains key = true ↔ DeclaresKey m.types key := by
  rw [SymbolIndex.contains_iff, ← Option.isSome_iff_exists, SymbolIndex.isSome_putEach,
    exists_syncEntries_iff, or_iff_right_iff_imp]
  intro hbefore
  obtain ⟨e, he⟩ := Option.isSome_iff_exists.mp hbefore
  obtain ⟨p, hp, hkey⟩ := h.declaresKey hold.ascending he
  exact (hmerges.declaresKey_iff key).mpr ⟨p, hperm.mem_iff.mpr hp, hkey⟩

/-- The entry of a merged type is set anew when the type has several parts, and otherwise what may be
under its key already is the entry of its one part. -/
theorem get?_putEach (h : IndexMatches project documents x) (hold : RemembersSoundly documents)
    (hmerges : m.Merges ps) (hperm : ps.Perm (declaredBy documents.values)) {p : Declared}
    (hp : p ∈ m.types) :
    (x.putEach (syncEntries project m)).get? p.key = some (.ofType project p.space p.type) := by
  have hid := hold.isTypeId_of_merged hmerges hperm hp
  refine SymbolIndex.get?_putEach_eq ?_ (.inr ⟨_, mem_syncEntries.mpr ⟨p, hp, .inl rfl⟩, rfl⟩)
  intro e he hkey
  obtain ⟨p', hp', rfl | ⟨member, hmember, rfl⟩⟩ := mem_syncEntries.mp he
  · -- No other type has the key, so only the mode in which the entry is put is left to look at.
    obtain rfl : p' = p := List.inj_on_of_nodup_map hmerges.keysNodup hp' hp hkey
    refine ⟨rfl, ?_⟩
    by_cases hrepeated : p'.key ∈ m.repeated
    · exact .inl (by simpa using hrepeated)
    · refine .inr ?_
      cases hfound : x.get? p'.key with
      | none => exact .inl rfl
      | some old =>
        have hself := h.consistent.keyed _ _ hfound
        have hfew : (partsOf p'.key ps).length < 2 := by
          rw [hmerges.mem_repeated] at hrepeated
          omega
        rcases (h.fits _ _ hfound).types (hself ▸ hid) with hdeclaration | hparts
        · -- The one declaration that `old` belongs to is the one part of the merged type.
          obtain ⟨file, document, q, hdocument, hq, rfl⟩ := hdeclaration
          have hkey' : q.key = p'.key := hself
          have hin := hold.mem_partsOf hperm hdocument hq
          rw [hkey', hmerges.partsOf_eq_singleton hp hfew, List.mem_singleton] at hin
          rw [hin]
          exact .inr rfl
        · have hle := length_partsOf_locatedIn_le old.key old documents
          rw [hself, ← length_partsOf_perm hperm] at hle
          rw [hself] at hparts
          omega
  · have hmemberId : ¬IsTypeId p.key :=
      hkey ▸ hold.not_isTypeId_of_merged hmerges hperm hp' hmember
    exact absurd hid hmemberId

end Synced

end IndexMatches

end SolutionAtlas
