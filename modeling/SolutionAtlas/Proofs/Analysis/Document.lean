-- SUMMARY: The result of analyzing a document: what it depends on, and what it declares where.
import Mathlib
import SolutionAtlas.Analysis.Analyzer
import SolutionAtlas.Proofs.Analysis.Merge
import SolutionAtlas.Proofs.CSharp.Ids

/-!
# Analyzed documents

The result for a document depends on its job, on its bytes and on how the provider parses them. All
that it declares is located in the document itself, types under ids of types and members under others.
-/

namespace SolutionAtlas

open CSharp (IsTypeId)

/-! ## Results -/

namespace AnalyzedDocument

variable (j : DocumentJob) (o : CSharp.Outline) (options : ExtractOptions)

@[simp] theorem ofOutline_path : (ofOutline j o options).path = j.path := by
  unfold ofOutline
  split <;> rfl

@[simp] theorem ofOutline_modifiedMs : (ofOutline j o options).modifiedMs = j.modifiedMs := by
  unfold ofOutline
  split <;> rfl

@[simp] theorem ofOutline_lineCount : (ofOutline j o options).lineCount = o.lineCount := by
  unfold ofOutline
  split <;> rfl

end AnalyzedDocument

namespace Workspace

variable {w : Workspace} {options : ExtractOptions} {j : DocumentJob} {document : AnalyzedDocument}

/-- A result comes from the text that is there. -/
theorem outcome_eq_ok (h : (w.analyzeDocument options j).outcome = .ok document) :
    ∃ text outline, w.disk.readText j.path = .ok text ∧
      (w.provider.parseDocument j.path text).result = .ok outline ∧
      document = .ofOutline j outline options := by
  unfold analyzeDocument at h
  dsimp only at h
  split at h
  · cases h
  · rename_i text htext
    split at h
    · cases h
    · rename_i outline hparse
      cases h
      exact ⟨text, outline, htext, hparse, rfl⟩

theorem outcome_ok (h : (w.analyzeDocument options j).outcome = .ok document) :
    ∃ text outline, (w.provider.parseDocument j.path text).result = .ok outline ∧
      document = .ofOutline j outline options := by
  obtain ⟨text, outline, -, hparse, hdocument⟩ := outcome_eq_ok h
  exact ⟨text, outline, hparse, hdocument⟩

/-- Documents with the same bytes, parsed by the same provider, have the same result. -/
theorem analyzeDocument_congr {w' : Workspace} (hprovider : w.provider = w'.provider)
    (hbytes : w.disk.readBytes j.path = w'.disk.readBytes j.path) :
    w.analyzeDocument options j = w'.analyzeDocument options j := by
  unfold analyzeDocument
  rw [Disk.readText, hbytes, hprovider]
  rfl

/-- With the provider that knows the disk, no caller gives up while a document is parsed. -/
theorem givesUp_analyzeDocument (hprovider : w.provider = .workspace) :
    (w.analyzeDocument options j).givesUp = false := by
  unfold analyzeDocument
  rw [hprovider]
  dsimp only
  split
  · rfl
  · split <;> rfl

theorem path_of_outcome (h : (w.analyzeDocument options j).outcome = .ok document) :
    document.path = j.path := by
  obtain ⟨_, outline, -, rfl⟩ := outcome_ok h
  exact AnalyzedDocument.ofOutline_path j outline options

theorem modifiedMs_of_outcome (h : (w.analyzeDocument options j).outcome = .ok document) :
    document.modifiedMs = j.modifiedMs := by
  obtain ⟨_, outline, -, rfl⟩ := outcome_ok h
  exact AnalyzedDocument.ofOutline_modifiedMs j outline options

end Workspace

/-- A result is taken over when the time of change is the same. -/
theorem reusable?_eq_some {previous : Table AnalyzedDocument} {j : DocumentJob}
    {document : AnalyzedDocument} :
    reusable? previous j = some document ↔
      ∃ old, previous.get? (Path.tidy j.path) = some old ∧ old.modifiedMs = j.modifiedMs ∧
        { old with path := j.path } = document := by
  unfold reusable?
  rw [Option.map_eq_some_iff]
  constructor
  · rintro ⟨old, hold, hdocument⟩
    obtain ⟨hget, htime⟩ := Option.filter_eq_some_iff.mp hold
    exact ⟨old, hget, beq_iff_eq.mp htime, hdocument⟩
  · rintro ⟨old, hget, htime, hdocument⟩
    exact ⟨old, Option.filter_eq_some_iff.mpr ⟨hget, beq_iff_eq.mpr htime⟩, hdocument⟩

/-! ## Declarations -/

/-- The symbol has a location, and all its locations are in the file. -/
structure Symbol.LiesIn (s : Symbol) (file : String) : Prop where
  located : s.locations ≠ []
  only : ∀ l ∈ s.locations, l.filePath = file

/-- What a document declares lies in it, and ids tell its types from its members. -/
structure AnalyzedDocument.Sound (document : AnalyzedDocument) : Prop where
  typeId : ∀ p ∈ document.declared, IsTypeId p.key
  memberId : ∀ p ∈ document.declared, ∀ m ∈ p.type.members, ¬IsTypeId m.symbol.key
  type_liesIn : ∀ p ∈ document.declared, p.type.symbol.LiesIn document.path
  member_liesIn : ∀ p ∈ document.declared, ∀ m ∈ p.type.members, m.symbol.LiesIn document.path

theorem Symbol.liesIn_singleton (s : Symbol) (span : CSharp.Span) (file : String)
    (h : s.locations = [span.location file]) : s.LiesIn file where
  located := by
    rw [h]
    exact List.cons_ne_nil _ _
  only := by
    intro l hl
    rw [h] at hl
    rw [List.mem_singleton.mp hl]
    rfl

theorem CSharp.Outline.mem_declaredIn {o : CSharp.Outline} {paths : DocumentPaths}
    {options : ExtractOptions} {p : Declared} (h : p ∈ declaredIn (o.toNamespaces paths options)) :
    ∃ n ∈ o.namespaces, ∃ t ∈ n.types, p = ⟨n.name, t.toType paths options⟩ := by
  simp only [declaredIn, toNamespaces, List.mem_flatMap, List.mem_map] at h
  obtain ⟨_, ⟨n, hn, rfl⟩, u, hu, rfl⟩ := h
  obtain ⟨t, ht, rfl⟩ := List.mem_map.mp hu
  exact ⟨n, hn, t, ht, rfl⟩

theorem AnalyzedDocument.ofOutline_sound {o : CSharp.Outline} (ho : o.WellIdentified)
    (j : DocumentJob) (options : ExtractOptions) : (ofOutline j o options).Sound := by
  have hdeclared (p) (hp : p ∈ (ofOutline j o options).declared) :
      ∃ t : CSharp.OutlineType, t.WellIdentified ∧
        p.type = t.toType ⟨j.path, j.relativePath⟩ options := by
    unfold declared ofOutline at hp
    split at hp
    · cases hp
    · obtain ⟨n, hn, t, ht, rfl⟩ := CSharp.Outline.mem_declaredIn hp
      exact ⟨t, ho n hn t ht, rfl⟩
  have hmember (p) (hp : p ∈ (ofOutline j o options).declared) (m) (hm : m ∈ p.type.members) :
      ∃ t : CSharp.OutlineType, t.WellIdentified ∧ ∃ om ∈ t.members, ∃ inInterface,
        m = om.toMember t.id inInterface j.path := by
    obtain ⟨t, ht, htype⟩ := hdeclared p hp
    rw [htype] at hm
    obtain ⟨om, hom, rfl⟩ := List.mem_map.mp hm
    exact ⟨t, ht, om, List.mem_of_mem_filter hom, _, rfl⟩
  refine ⟨fun p hp => ?_, fun p hp m hm => ?_, fun p hp => ?_, fun p hp m hm => ?_⟩
  · obtain ⟨t, ht, htype⟩ := hdeclared p hp
    rw [Declared.key, htype]
    exact ht.isTypeId
  · obtain ⟨t, ht, om, hom, _, rfl⟩ := hmember p hp m hm
    exact ht.members om hom
  · obtain ⟨t, ht, htype⟩ := hdeclared p hp
    rw [htype, ofOutline_path]
    exact Symbol.liesIn_singleton _ t.span _ rfl
  · obtain ⟨t, ht, om, hom, _, rfl⟩ := hmember p hp m hm
    rw [ofOutline_path]
    exact Symbol.liesIn_singleton _ om.span _ rfl

end SolutionAtlas
