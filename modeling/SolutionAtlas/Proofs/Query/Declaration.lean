-- SUMMARY: The index of a loaded solution and its model speak of the same declarations.
import Mathlib
import SolutionAtlas.Proofs.Analysis.PassIndex
import SolutionAtlas.Proofs.Query.Resolve
import SolutionAtlas.Query.Declaration
import SolutionAtlas.Query.Hierarchy
import SolutionAtlas.Query.Search

/-!
# Index and model

A key may be declared several times: by types and members, in one project or in several. The index
keeps the first declaration of a key. Queries look it up in the model again, among the types or among
the members, and find the same one; so what the index holds is never out of date.
-/

namespace SolutionAtlas

/-! ## First declarations -/

/-- What types declare, in the order in which it is indexed: the entry of each symbol, with the project
and the namespace it stands in. -/
def declarationsOf (types : List (Project × Namespace × TypeSymbol)) :
    List (Project × Namespace × IndexEntry) :=
  types.flatMap fun (p, n, t) =>
    (IndexEntry.allOfType p.projectFilePath n.name t).map fun e => (p, n, e)

/-- The first declaration of a key. -/
def Solution.declaration? (s : Solution) (key : String) : Option (Project × Namespace × IndexEntry) :=
  (declarationsOf s.types).find? (·.2.2.key == key)

/-- The first member of a type that has a key. -/
def memberWithKey? (key : String) :
    Project × Namespace × TypeSymbol → Option (Project × Namespace × TypeSymbol × Member)
  | (p, n, t) => (t.members.find? (·.symbol.key == key)).map fun m => (p, n, t, m)

theorem declarationsOf_map (s : Solution) :
    (declarationsOf s.types).map (·.2.2) = SymbolIndex.entriesOf s := by
  simp [declarationsOf, SymbolIndex.entriesOf, List.map_flatMap, Function.comp_def]

theorem find_allOfType (p : Project) (n : Namespace) (t : TypeSymbol) (key : String) :
    ((IndexEntry.allOfType p.projectFilePath n.name t).map fun e => (p, n, e)).find?
        (·.2.2.key == key) =
      if t.symbol.key = key then some (p, n, .ofType p.projectFilePath n.name t)
      else (t.members.find? (·.symbol.key == key)).map fun m =>
        (p, n, .ofMember p.projectFilePath n.name t m) := by
  simp only [IndexEntry.allOfType, List.map_cons, List.find?_cons, List.map_map, List.find?_map]
  by_cases hkey : t.symbol.key = key
  · simp [IndexEntry.ofType, hkey]
  · have hkey' : (t.symbol.key == key) = false := by simpa using hkey
    simp only [IndexEntry.ofType, hkey', if_neg hkey]
    rfl

/-- The first declaration of a key is that of the first type with the key, or that of the first member
with it. -/
theorem find_declarationsOf {types : List (Project × Namespace × TypeSymbol)} {key : String}
    {p : Project} {n : Namespace} {e : IndexEntry}
    (h : (declarationsOf types).find? (·.2.2.key == key) = some (p, n, e)) :
    (∃ t, types.find? (·.2.2.symbol.key == key) = some (p, n, t) ∧
        e = .ofType p.projectFilePath n.name t) ∨
      ∃ t m, types.findSome? (memberWithKey? key) = some (p, n, t, m) ∧
        e = .ofMember p.projectFilePath n.name t m := by
  induction types with
  | nil => cases h
  | cons first types ih =>
    obtain ⟨p₀, n₀, t₀⟩ := first
    rw [declarationsOf, List.flatMap_cons, List.find?_append, find_allOfType] at h
    by_cases hkey : t₀.symbol.key = key
    · left
      rw [if_pos hkey] at h
      cases h
      exact ⟨t₀, by simp [hkey], rfl⟩
    · rw [if_neg hkey] at h
      cases hmember : t₀.members.find? (·.symbol.key == key) with
      | some m =>
        right
        rw [hmember] at h
        cases h
        exact ⟨t₀, m, by simp [memberWithKey?, hmember], rfl⟩
      | none =>
        rw [hmember] at h
        obtain ⟨t, hfound, he⟩ | ⟨t, m, hfound, he⟩ := ih h
        · exact .inl ⟨t, by simp [hkey, hfound], he⟩
        · exact .inr ⟨t, m, by simp [memberWithKey?, hmember, hfound], he⟩

/-! ## Entries and what the model knows of them -/

theorem SymbolIndex.snd_addAll (x : SymbolIndex) (es : List IndexEntry) :
    (x.addAll es).2 = x.addEach es := by
  induction es generalizing x with
  | nil => rfl
  | cons e es ih => exact ih (x.add e).2

def SymbolExtra.isType : SymbolExtra → Bool
  | .type _ => true
  | .member _ => false

/-- The failure says that the index holds what the model does not. -/
def QueryError.IsDrift : QueryError → Prop
  | .notFound _ _ .staleIndex | .notFound _ _ .reload => True
  | _ => False

namespace LoadedSolution

variable {l : LoadedSolution}

/-- The entry of a key is that of its first declaration in the model. -/
structure Faithful (l : LoadedSolution) : Prop where
  consistent : l.index.Consistent
  lookup : ∀ key, l.index.get? key = (l.solution.declaration? key).map (·.2.2)

theorem faithful_ofSolution (s : Solution) (live : Option LiveEngine) :
    (ofSolution s live).Faithful := by
  have hindex : (ofSolution s live).index = SymbolIndex.empty.addEach (SymbolIndex.entriesOf s) :=
    SymbolIndex.snd_addAll _ _
  refine ⟨?_, ?_⟩
  · rw [hindex]
    exact SymbolIndex.Consistent.empty.addEach _
  · intro key
    rw [hindex, SymbolIndex.get?_addEach, SymbolIndex.get?_empty, Option.none_or,
      ← declarationsOf_map, List.find?_map]
    rfl

namespace Faithful

variable {e : IndexEntry} {p : Project} {n : Namespace}

theorem exists_declaration (h : l.Faithful) (he : e ∈ l.index.snapshot) :
    ∃ p n, l.solution.declaration? e.key = some (p, n, e) := by
  have hfound := h.consistent.mem_snapshot_iff.mp he
  rw [h.lookup] at hfound
  obtain ⟨⟨p, n, _⟩, hdeclared, rfl⟩ := Option.map_eq_some_iff.mp hfound
  exact ⟨p, n, hdeclared⟩

theorem exists_type (h : l.Faithful) (he : e ∈ l.index.snapshot) (htype : e.isType = true) :
    ∃ p n t, l.findType? e.key = some (p, n, t) ∧ e = .ofType p.projectFilePath n.name t := by
  obtain ⟨p, n, hdeclared⟩ := h.exists_declaration he
  obtain ⟨t, hfound, hof⟩ | ⟨t, m, -, hmember⟩ := find_declarationsOf hdeclared
  · exact ⟨p, n, t, hfound, hof⟩
  · rw [hmember] at htype
    cases htype

end Faithful

theorem origin_of_declaration? {s : Solution} {key : String} {e : IndexEntry} {p : Project}
    {n : Namespace} (h : s.declaration? key = some (p, n, e)) :
    e.projectFilePath = p.projectFilePath ∧ e.nameSpace = n.name := by
  obtain ⟨t, -, rfl⟩ | ⟨t, m, -, rfl⟩ := find_declarationsOf h
  · exact ⟨rfl, rfl⟩
  · exact ⟨rfl, rfl⟩

/-- The detail of an entry is that of its first declaration. -/
theorem detailOf_eq {e : IndexEntry} {p : Project} {n : Namespace}
    (h : l.solution.declaration? e.key = some (p, n, e)) :
    ∃ extra, l.detailOf e = .ok ⟨e.symbol, some p.name, some n.name, extra⟩ ∧
      extra.isType = e.isType := by
  obtain ⟨t, hfound, he⟩ | ⟨t, m, hfound, he⟩ := find_declarationsOf h
  · have htype : l.findType? e.key = some (p, n, t) := hfound
    have hisType : e.isType = true := by rw [he]; rfl
    refine ⟨.ofType t, ?_, by rw [hisType]; rfl⟩
    rw [detailOf, if_pos hisType, htype, he]
    rfl
  · have hmember : l.findMember? e.key = some (p, n, t, m) := hfound
    have hisMember : e.isType = false := by rw [he]; rfl
    refine ⟨.ofMember m (some t), ?_, by rw [hisMember]; rfl⟩
    rw [detailOf, hisMember, if_neg Bool.false_ne_true, hmember, he]
    rfl

/-! ## Resolution -/

/-- A text stands for an entry of the index of the kind that is asked for, or the failure lies in the
text. -/
theorem lookUp_cases (hl : l.index.Consistent) (target : Target) (wanted : String) :
    (∃ e, l.lookUp target wanted = .ok e ∧ e ∈ l.index.snapshot ∧ target.accepts e = true) ∨
      ∃ err, l.lookUp target wanted = .error err ∧ ¬err.IsDrift := by
  have h := standsFor_lookUp hl target wanted
  cases hresult : l.lookUp target wanted with
  | ok e =>
    rw [hresult] at h
    obtain ⟨he, haccepts⟩ := List.mem_filter.mp h.bears.1
    exact .inl ⟨e, rfl, he, haccepts⟩
  | error err =>
    rw [hresult] at h
    refine .inr ⟨err, rfl, ?_⟩
    cases h with
    | ambiguous => exact not_false
    | unknown => exact not_false

theorem resolve_cases (hl : l.index.Consistent) (target : Target) (raw : String) :
    (∃ e, l.resolve target raw = .ok e ∧ e ∈ l.index.snapshot ∧ target.accepts e = true) ∨
      ∃ err, l.resolve target raw = .error err ∧ ¬err.IsDrift := by
  unfold resolve
  split
  · exact lookUp_cases hl target _
  · exact .inr ⟨_, rfl, not_false⟩

/-- A key without blanks around it stands for its own entry. -/
theorem resolve_key (hl : l.index.Consistent) {e : IndexEntry} (he : e ∈ l.index.snapshot)
    (hne : e.key ≠ "") (htrim : Text.trim e.key = e.key) : l.resolve .any e.key = .ok e :=
  resolve_of_key hl (List.mem_filter.mpr ⟨he, rfl⟩) hne htrim

/-! ## Queries -/

namespace Faithful

theorem symbolDetail_key (h : l.Faithful) {e : IndexEntry} (he : e ∈ l.index.snapshot)
    (hne : e.key ≠ "") (htrim : Text.trim e.key = e.key) :
    ∃ p n extra, l.solution.declaration? e.key = some (p, n, e) ∧
      l.symbolDetail e.key = .ok ⟨e.symbol, some p.name, some n.name, extra⟩ ∧
      extra.isType = e.isType := by
  obtain ⟨p, n, hdeclared⟩ := h.exists_declaration he
  obtain ⟨extra, hdetail, hextra⟩ := detailOf_eq hdeclared
  refine ⟨p, n, extra, hdeclared, ?_, hextra⟩
  rw [symbolDetail, resolve_key h.consistent he hne htrim]
  exact hdetail

theorem symbolDetail_error (h : l.Faithful) {id : String} {err : QueryError}
    (herr : l.symbolDetail id = .error err) : ¬err.IsDrift := by
  obtain ⟨e, hok, he, -⟩ | ⟨other, hfails, hother⟩ := resolve_cases h.consistent .any id
  · obtain ⟨p, n, hdeclared⟩ := h.exists_declaration he
    obtain ⟨extra, hdetail, -⟩ := detailOf_eq hdeclared
    rw [symbolDetail, hok] at herr
    change l.detailOf e = _ at herr
    rw [hdetail] at herr
    cases herr
  · rw [symbolDetail, hfails] at herr
    cases herr
    exact hother

theorem typeMembers_error (h : l.Faithful) {id : String} {kind : Option SymbolKind}
    {access : Option Accessibility} {err : QueryError}
    (herr : l.typeMembers id kind access = .error err) : ¬err.IsDrift := by
  obtain ⟨e, hok, he, htype⟩ | ⟨other, hfails, hother⟩ := resolve_cases h.consistent .type id
  · obtain ⟨p, n, t, hfound, -⟩ := h.exists_type he htype
    rw [typeMembers, hok] at herr
    simp only [bind, Except.bind, hfound] at herr
    cases herr
  · rw [typeMembers, hfails] at herr
    cases herr
    exact hother

theorem derived_error {e : IndexEntry} {isInterface : Bool} {q : DerivedQuery} {err : QueryError}
    (herr : l.derived e isInterface q = .error err) : err = .cancelled := by
  unfold derived at herr
  split at herr
  · cases herr
  · split at herr
    · cases herr
    · cases herr
      rfl
    · cases herr

theorem typeHierarchy_error (h : l.Faithful) {id : String} {err : QueryError}
    (herr : l.typeHierarchy id = .error err) : ¬err.IsDrift := by
  obtain ⟨e, hok, he, htype⟩ | ⟨other, hfails, hother⟩ := resolve_cases h.consistent .type id
  · obtain ⟨p, n, t, hfound, -⟩ := h.exists_type he htype
    rw [typeHierarchy, hok] at herr
    simp only [bind, Except.bind, hfound] at herr
    split at herr
    · rename_i cause hderived
      cases herr
      rw [derived_error hderived]
      exact not_false
    · cases herr
  · rw [typeHierarchy, hfails] at herr
    cases herr
    exact hother

end Faithful

/-- What a search shows is of an entry of the index. -/
theorem exists_entry_of_hit {q : SearchQuery} {hit : SearchHit} (h : hit ∈ (l.search q).results) :
    ∃ tier, ∃ e ∈ l.index.snapshot, hit = .ofEntry tier e := by
  obtain ⟨⟨tier, e⟩, hranked, rfl⟩ := List.mem_map.mp h
  refine ⟨tier, e, ?_, rfl⟩
  have hmatching : (tier, e) ∈ l.matching q := List.mem_mergeSort.mp (List.mem_of_mem_take hranked)
  obtain ⟨d, hd, hsome⟩ := List.mem_filterMap.mp hmatching
  obtain ⟨_, -, hpair⟩ := Option.map_eq_some_iff.mp hsome
  cases hpair
  exact hd

/-- In every loaded solution, however it came there, the index and the model agree. The key of an entry
leads to the symbol, the namespace and the project that the entry was made from. No query finds the
index out of date. What a search shows is found again by its id. -/
theorem index_agrees_with_model {config : ContextConfig} {calls : List ContextCall}
    (hl : ((Context.new config).run calls).loaded = some l) :
    (∀ e ∈ l.index.snapshot, e.key ≠ "" → Text.trim e.key = e.key →
      ∃ p n extra, l.solution.declaration? e.key = some (p, n, e) ∧
        e.projectFilePath = p.projectFilePath ∧ e.nameSpace = n.name ∧
        l.symbolDetail e.key = .ok ⟨e.symbol, some p.name, some n.name, extra⟩ ∧
        (extra.isType = true ↔ e.isType = true)) ∧
      (∀ id kind access err, l.symbolDetail id = .error err ∨ l.typeMembers id kind access = .error err ∨
        l.typeHierarchy id = .error err → ¬err.IsDrift) ∧
      ∀ q, ∀ hit ∈ (l.search q).results, hit.symbolId ≠ "" → Text.trim hit.symbolId = hit.symbolId →
        ∃ tier e detail, hit = .ofEntry tier e ∧ l.resolve .any hit.symbolId = .ok e ∧
          l.symbolDetail hit.symbolId = .ok detail ∧ detail.symbol = e.symbol := by
  have h : l.Faithful := by
    rw [(Context.inOrder_run config calls).fromModel l hl]
    exact faithful_ofSolution _ _
  refine ⟨?_, ?_, ?_⟩
  · intro e he hne htrim
    obtain ⟨p, n, extra, hdeclared, hdetail, hextra⟩ := h.symbolDetail_key he hne htrim
    obtain ⟨hproject, hspace⟩ := origin_of_declaration? hdeclared
    exact ⟨p, n, extra, hdeclared, hproject, hspace, hdetail, by rw [hextra]⟩
  · rintro id kind access err (herr | herr | herr)
    · exact h.symbolDetail_error herr
    · exact h.typeMembers_error herr
    · exact h.typeHierarchy_error herr
  · intro q hit hhit hne htrim
    obtain ⟨tier, e, he, rfl⟩ := exists_entry_of_hit hhit
    obtain ⟨p, n, extra, -, hdetail, -⟩ := h.symbolDetail_key he hne htrim
    exact ⟨tier, e, _, rfl, resolve_key h.consistent he hne htrim, hdetail, rfl⟩

/-! ## A key declared twice -/

namespace Example

def symbol (key : String) (kind : SymbolKind) : Symbol :=
  ⟨some key, "K", "N.K", kind, .publicAccess, [], none, [⟨"/s/K.cs", 1, 1, 1, 9⟩]⟩

def member : Member :=
  ⟨symbol "K" .method, false, false, false, false, false, none, [], none, none⟩

def type (key : String) (members : List Member) : TypeSymbol :=
  ⟨symbol key .classType, members, [], [], false, false, false, false, "/s/K.cs", "K.cs", 1⟩

def project (name : String) (t : TypeSymbol) : Project where
  name := name
  projectFilePath := "/s/" ++ name ++ ".csproj"
  namespaces := [⟨"N", [t], "/s/K.cs"⟩]

/-- A method of the first project has the same key as a type of the second. -/
def twice : Solution where
  name := "S"
  path := "/s/S.sln"
  projects := [project "A" (type "T" [member]), project "B" (type "K" [])]

end Example

/-- The method comes first, so the key stands for it. -/
theorem index_agrees_with_model_twice :
    ∃ l, ((Context.new {}).run [.install Example.twice none]).loaded = some l ∧
      ∃ e ∈ l.index.snapshot, e.key = "K" ∧ ∃ (p : Project) (n : Namespace) (extra : SymbolExtra),
        p.name = "A" ∧ extra.isType = false ∧
          l.symbolDetail "K" = .ok ⟨e.symbol, some p.name, some n.name, extra⟩ := by
  have hl : ((Context.new {}).run [.install Example.twice none]).loaded =
      some (ofSolution Example.twice none) := rfl
  have hsome : (ofSolution Example.twice none).index.snapshot.any (·.key == "K") = true := by
    decide +kernel
  have hfirst : (Example.twice.declaration? "K").map (fun d => (d.1.name, d.2.2.isType)) =
      some ("A", false) := by
    decide +kernel
  have htrim : Text.trim "K" = "K" := by decide +kernel
  obtain ⟨e, he, hkey⟩ := List.any_eq_true.mp hsome
  have hkey : e.key = "K" := beq_iff_eq.mp hkey
  obtain ⟨h, -, -⟩ := index_agrees_with_model hl
  obtain ⟨p, n, extra, hdeclared, -, -, hdetail, hextra⟩ := h e he (by simp [hkey]) (by rw [hkey, htrim])
  rw [hkey] at hdeclared hdetail
  change Example.twice.declaration? "K" = _ at hdeclared
  rw [hdeclared] at hfirst
  obtain ⟨hname, htype⟩ := Prod.mk.inj (Option.some.inj hfirst)
  have hmember : extra.isType = false := by
    rw [Bool.eq_iff_iff.mpr hextra]
    exact htype
  exact ⟨_, hl, e, he, hkey, p, n, extra, hname, hmember, hdetail⟩

end LoadedSolution

end SolutionAtlas
