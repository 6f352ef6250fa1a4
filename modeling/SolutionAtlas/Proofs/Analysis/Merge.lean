-- SUMMARY: What merging does: one type for each key, put together from all declarations of that key.
import Mathlib
import SolutionAtlas.Proofs.Analysis.MergeSlots

/-!
# Merged declarations

Documents are merged by a loop over their types. Seen one key at a time the loop is a fold: the type of
a key is its first declaration, into which the others are merged in order. So a merged type has the
locations, base types, interfaces and member keys of all its parts, and no others.
-/

namespace SolutionAtlas

/-! ## Declarations -/

/-- A declared type with the name of its namespace. -/
structure Declared where
  space : String
  type : TypeSymbol

def Declared.key (p : Declared) : String :=
  p.type.symbol.key

theorem Declared.key_mk (space : String) (t : TypeSymbol) : Declared.key ⟨space, t⟩ = t.symbol.key := rfl

/-- The types of namespaces, in order. -/
def declaredIn (ns : List Namespace) : List Declared :=
  ns.flatMap fun n => n.types.map fun t => ⟨n.name, t⟩

/-- The types that a document declares. -/
def AnalyzedDocument.declared (document : AnalyzedDocument) : List Declared :=
  declaredIn document.namespaces

/-- The types that documents declare, in order. -/
def declaredBy (documents : List AnalyzedDocument) : List Declared :=
  documents.flatMap (·.declared)

theorem mem_declaredBy {documents : List AnalyzedDocument} {p : Declared} :
    p ∈ declaredBy documents ↔ ∃ document ∈ documents, p ∈ document.declared :=
  List.mem_flatMap

/-- The key is that of a declared type or of one of its members. -/
def DeclaresKey (ps : List Declared) (key : String) : Prop :=
  ∃ p ∈ ps, p.key = key ∨ key ∈ p.type.memberKeys

/-- The declarations of a key. -/
def partsOf (key : String) (ps : List Declared) : List Declared :=
  ps.filter (·.key == key)

/-- The first declaration, with the others merged into it. -/
def mergedParts? : List Declared → Option Declared
  | [] => none
  | first :: rest => some ⟨first.space, rest.foldl (fun u p => u.merge p.type) first.type⟩

theorem TypeSymbol.key_foldl_merge (t : TypeSymbol) (ps : List Declared) :
    (ps.foldl (fun u p => u.merge p.type) t).symbol.key = t.symbol.key := by
  induction ps generalizing t with
  | nil => rfl
  | cons p ps ih => rw [List.foldl_cons, ih, key_merge]

theorem mergedParts?_concat {ps : List Declared} (hne : ps ≠ []) (p : Declared) :
    mergedParts? (ps ++ [p]) = (mergedParts? ps).map fun e => ⟨e.space, e.type.merge p.type⟩ := by
  cases ps with
  | nil => exact absurd rfl hne
  | cons first rest => simp [mergedParts?, List.foldl_append]

theorem mergedParts?_eq_none {ps : List Declared} : mergedParts? ps = none ↔ ps = [] := by
  cases ps <;> simp [mergedParts?]

theorem key_of_mergedParts? {key : String} {ps : List Declared} {e : Declared}
    (h : mergedParts? (partsOf key ps) = some e) : e.key = key := by
  cases hparts : partsOf key ps with
  | nil =>
    rw [hparts] at h
    cases h
  | cons first rest =>
    have hfirst : first ∈ partsOf key ps := hparts ▸ List.mem_cons_self
    rw [hparts] at h
    cases h
    exact (TypeSymbol.key_foldl_merge _ _).trans (beq_iff_eq.mp (List.mem_filter.mp hfirst).2)

theorem partsOf_concat {key : String} {p : Declared} (h : p.key = key) (ps : List Declared) :
    partsOf key (ps ++ [p]) = partsOf key ps ++ [p] := by
  simp [partsOf, h]

theorem partsOf_concat_of_ne {key : String} {p : Declared} (h : p.key ≠ key) (ps : List Declared) :
    partsOf key (ps ++ [p]) = partsOf key ps := by
  simp [partsOf, h]

/-- What is kept of both sides of a merge is kept of all parts. -/
theorem TypeSymbol.mem_foldl_merge {β : Type} {f : TypeSymbol → List β}
    (hf : ∀ t u x, x ∈ f (t.merge u) ↔ x ∈ f t ∨ x ∈ f u) (t : TypeSymbol) (ps : List Declared) (x : β) :
    x ∈ f (ps.foldl (fun u p => u.merge p.type) t) ↔ x ∈ f t ∨ ∃ p ∈ ps, x ∈ f p.type := by
  induction ps generalizing t with
  | nil => simp
  | cons p ps ih =>
    rw [List.foldl_cons, ih, hf, List.exists_mem_cons_iff, or_assoc]

theorem mem_of_mergedParts? {β : Type} {f : TypeSymbol → List β}
    (hf : ∀ t u x, x ∈ f (t.merge u) ↔ x ∈ f t ∨ x ∈ f u) {ps : List Declared} {e : Declared}
    (h : mergedParts? ps = some e) (x : β) : x ∈ f e.type ↔ ∃ p ∈ ps, x ∈ f p.type := by
  cases ps with
  | nil => cases h
  | cons first rest =>
    cases h
    rw [TypeSymbol.mem_foldl_merge hf, List.exists_mem_cons_iff]

/-- The type has the locations, base types, interfaces and member keys of its parts, and no others. -/
structure TypeSymbol.Unites (t : TypeSymbol) (parts : List Declared) : Prop where
  locations : ∀ l, l ∈ t.symbol.locations ↔ ∃ p ∈ parts, l ∈ p.type.symbol.locations
  baseTypes : ∀ base, base ∈ t.baseTypes ↔ ∃ p ∈ parts, base ∈ p.type.baseTypes
  interfaces : ∀ interface, interface ∈ t.interfaces ↔ ∃ p ∈ parts, interface ∈ p.type.interfaces
  memberKeys : ∀ key, key ∈ t.memberKeys ↔ ∃ p ∈ parts, key ∈ p.type.memberKeys

theorem unites_of_mergedParts? {ps : List Declared} {e : Declared} (h : mergedParts? ps = some e) :
    e.type.Unites ps where
  locations := mem_of_mergedParts? (f := fun t => t.symbol.locations) (fun _ _ _ => mem_unionInto) h
  baseTypes := mem_of_mergedParts? (fun _ _ _ => mem_unionInto) h
  interfaces := mem_of_mergedParts? (fun _ _ _ => mem_unionInto) h
  memberKeys := mem_of_mergedParts? (fun _ _ _ => mem_keys_unionMembers) h

theorem TypeSymbol.Unites.perm {t : TypeSymbol} {ps qs : List Declared} (h : t.Unites ps)
    (hperm : ps.Perm qs) : t.Unites qs where
  locations := fun l => (h.locations l).trans (exists_congr fun _ => and_congr_left fun _ => hperm.mem_iff)
  baseTypes := fun b => (h.baseTypes b).trans (exists_congr fun _ => and_congr_left fun _ => hperm.mem_iff)
  interfaces := fun i => (h.interfaces i).trans (exists_congr fun _ => and_congr_left fun _ => hperm.mem_iff)
  memberKeys := fun k => (h.memberKeys k).trans (exists_congr fun _ => and_congr_left fun _ => hperm.mem_iff)

/-- A member of a merged type is a member of one of its parts. -/
theorem member_of_mergedParts? {ps : List Declared} {e : Declared} (h : mergedParts? ps = some e)
    {m : Member} (hm : m ∈ e.type.members) : ∃ p ∈ ps, m ∈ p.type.members := by
  cases ps with
  | nil => cases h
  | cons first rest =>
    cases h
    rw [List.exists_mem_cons_iff]
    dsimp only at hm
    generalize first.type = t at hm
    induction rest generalizing t with
    | nil => exact .inl hm
    | cons p rest ih =>
      rw [List.exists_mem_cons_iff]
      rw [List.foldl_cons] at hm
      rcases ih _ hm with hm | hm
      · rcases mem_of_mem_unionMembers hm with hm | hm
        · exact .inl hm
        · exact .inr (.inl hm)
      · exact .inr (.inr hm)

/-! ## The loop -/

namespace MergedNamespaces

variable {m : MergedNamespaces} {ps : List Declared}

/-- The types with the names of their namespaces. -/
def types (m : MergedNamespaces) : List Declared :=
  declaredIn m.namespaces

/-- The loop has gone through some declarations. -/
structure Merges (m : MergedNamespaces) (ps : List Declared) : Prop where
  namesNodup : (m.namespaces.map (·.name)).Nodup
  keysNodup : (m.types.map Declared.key).Nodup
  mem_types : ∀ e, e ∈ m.types ↔ mergedParts? (partsOf e.key ps) = some e
  mem_repeated : ∀ key, key ∈ m.repeated ↔ 2 ≤ (partsOf key ps).length

theorem Merges.empty : Merges {} [] :=
  ⟨List.nodup_nil, List.nodup_nil, fun e => by simp [types, declaredIn, partsOf, mergedParts?],
    fun key => by simp [partsOf]⟩

theorem holdsType_iff {key : String} : m.holdsType key = true ↔ ∃ e ∈ m.types, e.key = key := by
  simp only [holdsType, types, declaredIn, List.any_eq_true, List.mem_flatMap, List.mem_map, beq_iff_eq]
  constructor
  · rintro ⟨n, hn, t, ht, hkey⟩
    exact ⟨⟨n.name, t⟩, ⟨n, hn, t, ht, rfl⟩, hkey⟩
  · rintro ⟨e, ⟨n, hn, t, ht, rfl⟩, hkey⟩
    exact ⟨n, hn, t, ht, hkey⟩

theorem types_addNamespace (m : MergedNamespaces) (n : Namespace) :
    (m.addNamespace n).types = m.types := by
  unfold addNamespace
  split
  · rfl
  · simp [types, declaredIn]

theorem mem_names_addNamespace (m : MergedNamespaces) (n : Namespace) :
    n.name ∈ (m.addNamespace n).namespaces.map (·.name) := by
  unfold addNamespace
  split
  · rename_i h
    simpa using h
  · simp

theorem Merges.addNamespace (h : m.Merges ps) (n : Namespace) : (m.addNamespace n).Merges ps where
  namesNodup := by
    unfold MergedNamespaces.addNamespace
    split
    · exact h.namesNodup
    · rename_i hnew
      have hfree : n.name ∉ m.namespaces.map (·.name) := by simpa using hnew
      rw [List.map_append, List.map_singleton, List.nodup_append_comm]
      exact List.nodup_cons.mpr ⟨hfree, h.namesNodup⟩
  keysNodup := by
    rw [types_addNamespace]
    exact h.keysNodup
  mem_types := by
    intro e
    rw [types_addNamespace, h.mem_types]
  mem_repeated := by
    intro key
    rw [← h.mem_repeated]
    unfold MergedNamespaces.addNamespace
    split <;> rfl

/-- A type changes nothing of a namespace but its types. -/
theorem map_addType {γ : Type} {f : Namespace → γ} (hf : ∀ n types, f { n with types := types } = f n)
    (space : String) (m : MergedNamespaces) (t : TypeSymbol) :
    (m.addType space t).namespaces.map f = m.namespaces.map f := by
  unfold addType
  split
  · simp [mergeType, Function.comp_def, hf]
  · simp only [appendType, List.map_map]
    refine List.map_congr_left fun n _ => ?_
    simp only [Function.comp_apply]
    split
    · exact hf n _
    · rfl

theorem names_addType (space : String) (m : MergedNamespaces) (t : TypeSymbol) :
    (m.addType space t).namespaces.map (·.name) = m.namespaces.map (·.name) :=
  map_addType (fun _ _ => rfl) space m t

theorem types_mergeType (m : MergedNamespaces) (t : TypeSymbol) :
    (m.mergeType t).types =
      m.types.map fun e => if e.key = t.symbol.key then ⟨e.space, e.type.merge t⟩ else e := by
  simp only [types, declaredIn, mergeType, List.flatMap_map, List.map_flatMap, List.map_map]
  refine List.flatMap_congr fun n _ => List.map_congr_left fun u _ => ?_
  have hself : Declared.key ⟨n.name, u⟩ = u.symbol.key := Declared.key_mk n.name u
  by_cases hkey : u.symbol.key = t.symbol.key
  · simp [hself, hkey]
  · simp [hself, hkey]

/-- A type that is put behind those of its namespace is added to the types of all. -/
theorem types_appendType {space : String} (hnodup : (m.namespaces.map (·.name)).Nodup)
    (hspace : space ∈ m.namespaces.map (·.name)) (t : TypeSymbol) :
    (m.appendType space t).types.Perm (⟨space, t⟩ :: m.types) := by
  unfold types declaredIn appendType
  dsimp only
  generalize m.namespaces = spaces at hnodup hspace
  induction spaces with
  | nil => cases hspace
  | cons n ns ih =>
    rw [List.map_cons] at hnodup hspace
    obtain ⟨hhead, htail⟩ := List.nodup_cons.mp hnodup
    rw [List.map_cons, List.flatMap_cons, List.flatMap_cons]
    by_cases hn : n.name = space
    · subst hn
      have hrest : ns.map (fun k => if k.name == n.name then { k with types := k.types ++ [t] } else k) = ns := by
        refine (List.map_congr_left fun k hk => ?_).trans (List.map_id ns)
        have hne : k.name ≠ n.name := fun heq => hhead (heq ▸ List.mem_map_of_mem hk)
        simp [hne]
      rw [hrest, if_pos (beq_self_eq_true _), List.map_append, List.append_assoc]
      exact List.perm_middle
    · have hin : space ∈ ns.map (·.name) := (List.mem_cons.mp hspace).resolve_left fun heq => hn heq.symm
      rw [if_neg (by simpa using hn)]
      exact ((ih htail hin).append_left _).trans List.perm_middle

theorem Merges.partsOf_eq_nil (h : m.Merges ps) {key : String} (hkey : m.holdsType key = false) :
    partsOf key ps = [] := by
  rw [← mergedParts?_eq_none, Option.eq_none_iff_forall_ne_some]
  intro e he
  have hself := key_of_mergedParts? he
  subst hself
  have hheld : m.holdsType e.key = true := holdsType_iff.mpr ⟨e, (h.mem_types e).mpr he, rfl⟩
  rw [hkey] at hheld
  cases hheld

theorem Merges.partsOf_ne_nil (h : m.Merges ps) {key : String} (hkey : m.holdsType key = true) :
    partsOf key ps ≠ [] := by
  obtain ⟨e, he, rfl⟩ := holdsType_iff.mp hkey
  intro hnil
  have hmerged := (h.mem_types e).mp he
  rw [hnil] at hmerged
  cases hmerged

theorem Merges.mergeType (h : m.Merges ps) (space : String) (t : TypeSymbol)
    (hheld : m.holdsType t.symbol.key = true) : (m.mergeType t).Merges (ps ++ [⟨space, t⟩]) where
  namesNodup := by
    have hnames := names_addType space m t
    rw [addType, if_pos hheld] at hnames
    exact hnames ▸ h.namesNodup
  keysNodup := by
    rw [types_mergeType, List.map_map]
    refine (List.map_congr_left fun e _ => ?_) ▸ h.keysNodup
    simp only [Function.comp_apply]
    split <;> rfl
  mem_types := by
    have hne := h.partsOf_ne_nil hheld
    intro e
    rw [types_mergeType, List.mem_map]
    by_cases hkey : e.key = t.symbol.key
    · rw [hkey, partsOf_concat (Declared.key_mk space t), mergedParts?_concat hne, Option.map_eq_some_iff]
      constructor
      · rintro ⟨d, hd, rfl⟩
        have hdkey : d.key = t.symbol.key := by
          by_contra hdne
          rw [if_neg hdne] at hkey
          exact hdne hkey
        exact ⟨d, hdkey ▸ (h.mem_types d).mp hd, by rw [if_pos hdkey]⟩
      · rintro ⟨d, hd, rfl⟩
        have hdkey := key_of_mergedParts? hd
        exact ⟨d, (h.mem_types d).mpr (hdkey.symm ▸ hd), by rw [if_pos hdkey]⟩
    · rw [partsOf_concat_of_ne (fun heq => hkey heq.symm), ← h.mem_types]
      constructor
      · rintro ⟨d, hd, rfl⟩
        split at hkey
        · rename_i hdkey
          exact absurd hdkey hkey
        · rename_i hdne
          rw [if_neg hdne]
          exact hd
      · exact fun he => ⟨e, he, by rw [if_neg hkey]⟩
  mem_repeated := by
    intro key
    have hlen : 0 < (partsOf t.symbol.key ps).length := List.length_pos_iff.mpr (h.partsOf_ne_nil hheld)
    have hrepeated : key ∈ (m.mergeType t).repeated ↔ key = t.symbol.key ∨ key ∈ m.repeated := by
      rw [MergedNamespaces.mergeType]
      dsimp only
      split
      · rename_i hin
        have hmem : t.symbol.key ∈ m.repeated := by simpa using hin
        exact ⟨.inr, fun hor => hor.elim (fun heq => heq ▸ hmem) id⟩
      · rw [List.mem_append, List.mem_singleton, or_comm]
    rw [hrepeated, h.mem_repeated]
    by_cases hkey : key = t.symbol.key
    · subst hkey
      rw [partsOf_concat (Declared.key_mk space t), List.length_append, List.length_singleton]
      simp only [true_or, true_iff]
      omega
    · rw [partsOf_concat_of_ne (fun heq => hkey heq.symm)]
      exact ⟨fun hor => hor.resolve_left hkey, .inr⟩

theorem Merges.appendType (h : m.Merges ps) {space : String}
    (hspace : space ∈ m.namespaces.map (·.name)) (t : TypeSymbol)
    (hfree : m.holdsType t.symbol.key = false) :
    (m.appendType space t).Merges (ps ++ [⟨space, t⟩]) where
  namesNodup := by
    have hnames := names_addType space m t
    rw [addType, if_neg (by simp [hfree])] at hnames
    exact hnames ▸ h.namesNodup
  keysNodup := by
    refine ((types_appendType h.namesNodup hspace t).map _).nodup_iff.mpr ?_
    rw [List.map_cons, List.nodup_cons]
    refine ⟨fun hin => ?_, h.keysNodup⟩
    obtain ⟨e, he, hkey⟩ := List.mem_map.mp hin
    have hheld : m.holdsType t.symbol.key = true := holdsType_iff.mpr ⟨e, he, hkey⟩
    rw [hfree] at hheld
    cases hheld
  mem_types := by
    have hnil := h.partsOf_eq_nil hfree
    intro e
    rw [(types_appendType h.namesNodup hspace t).mem_iff, List.mem_cons]
    by_cases hkey : e.key = t.symbol.key
    · have hout : e ∉ m.types := by
        intro hin
        have hmerged := (h.mem_types e).mp hin
        rw [hkey, hnil] at hmerged
        cases hmerged
      rw [hkey, partsOf_concat (Declared.key_mk space t), hnil]
      constructor
      · rintro (rfl | hin)
        · rfl
        · exact absurd hin hout
      · intro he
        cases he
        exact .inl rfl
    · rw [partsOf_concat_of_ne (fun heq => hkey heq.symm), ← h.mem_types]
      exact ⟨fun hor => hor.resolve_left fun heq => hkey (heq ▸ rfl), .inr⟩
  mem_repeated := by
    intro key
    refine (h.mem_repeated key).trans ?_
    by_cases hkey : key = t.symbol.key
    · subst hkey
      rw [partsOf_concat (Declared.key_mk space t), h.partsOf_eq_nil hfree]
      simp
    · rw [partsOf_concat_of_ne (fun heq => hkey heq.symm)]

theorem Merges.addType (h : m.Merges ps) {space : String}
    (hspace : space ∈ m.namespaces.map (·.name)) (t : TypeSymbol) :
    (m.addType space t).Merges (ps ++ [⟨space, t⟩]) := by
  unfold MergedNamespaces.addType
  split
  · rename_i hheld
    exact h.mergeType space t hheld
  · rename_i hfree
    exact h.appendType hspace t (Bool.eq_false_iff.mpr hfree)

theorem Merges.add (h : m.Merges ps) (n : Namespace) :
    (m.add n).Merges (ps ++ n.types.map (Declared.mk n.name)) := by
  unfold MergedNamespaces.add
  have hspace := mem_names_addNamespace m n
  have hstart := h.addNamespace n
  clear h
  generalize m.addNamespace n = m' at hspace hstart
  induction n.types generalizing m' ps with
  | nil =>
    rw [List.map_nil, List.append_nil]
    exact hstart
  | cons t ts ih =>
    have hspace' := names_addType n.name m' t ▸ hspace
    have hnext := ih _ hspace' (hstart.addType hspace t)
    rwa [List.append_assoc] at hnext

theorem Merges.foldl_add (h : m.Merges ps) (ns : List Namespace) :
    (ns.foldl MergedNamespaces.add m).Merges (ps ++ declaredIn ns) := by
  induction ns generalizing m ps with
  | nil =>
    rw [declaredIn, List.flatMap_nil, List.append_nil]
    exact h
  | cons n ns ih =>
    have hnext := ih (h.add n)
    rwa [List.append_assoc] at hnext

theorem Merges.partsOf_types_ne_nil (h : m.Merges ps) {e : Declared} (he : e ∈ m.types) :
    partsOf e.key ps ≠ [] := by
  intro hnil
  have hmerged := (h.mem_types e).mp he
  rw [hnil] at hmerged
  cases hmerged

/-- A merged type that has one part is that part. -/
theorem Merges.partsOf_eq_singleton (h : m.Merges ps) {e : Declared} (he : e ∈ m.types)
    (hfew : (partsOf e.key ps).length < 2) : partsOf e.key ps = [e] := by
  have hmerged := (h.mem_types e).mp he
  have hsome := List.length_pos_iff.mpr (h.partsOf_types_ne_nil he)
  obtain ⟨p, hparts⟩ : ∃ p, partsOf e.key ps = [p] := List.length_eq_one_iff.mp (by omega)
  rw [hparts] at hmerged ⊢
  obtain rfl : p = e := Option.some.inj hmerged
  rfl

/-- Every declaration is a part of a merged type. -/
theorem Merges.exists_type (h : m.Merges ps) {p : Declared} (hp : p ∈ ps) :
    ∃ e ∈ m.types, e.key = p.key ∧ p ∈ partsOf e.key ps := by
  have hpart : p ∈ partsOf p.key ps := List.mem_filter.mpr ⟨hp, beq_self_eq_true _⟩
  cases hmerged : mergedParts? (partsOf p.key ps) with
  | none =>
    rw [mergedParts?_eq_none.mp hmerged] at hpart
    cases hpart
  | some e =>
    have hkey := key_of_mergedParts? hmerged
    exact ⟨e, (h.mem_types e).mpr (hkey ▸ hmerged), hkey, hkey ▸ hpart⟩

/-- Merging keeps all keys and makes no new ones. -/
theorem Merges.declaresKey_iff (h : m.Merges ps) (key : String) :
    DeclaresKey m.types key ↔ DeclaresKey ps key := by
  constructor
  · rintro ⟨e, he, hkey⟩
    have hmerged := (h.mem_types e).mp he
    rcases hkey with rfl | hkey
    · obtain ⟨p, hp⟩ := List.exists_mem_of_ne_nil _ (h.partsOf_types_ne_nil he)
      obtain ⟨hin, hself⟩ := List.mem_filter.mp hp
      exact ⟨p, hin, .inl (beq_iff_eq.mp hself)⟩
    · obtain ⟨p, hp, hmember⟩ := ((unites_of_mergedParts? hmerged).memberKeys key).mp hkey
      exact ⟨p, (List.mem_filter.mp hp).1, .inr hmember⟩
  · rintro ⟨p, hp, hkey⟩
    obtain ⟨e, he, hself, hpart⟩ := h.exists_type hp
    refine ⟨e, he, hkey.imp hself.trans fun hmember => ?_⟩
    exact ((unites_of_mergedParts? ((h.mem_types e).mp he)).memberKeys key).mpr ⟨p, hpart, hmember⟩

/-- The loop over all documents merges all their declarations. -/
theorem merges_ofDocuments (documents : List AnalyzedDocument) :
    (ofDocuments documents).Merges (declaredBy documents) := by
  have hmerges := Merges.empty.foldl_add (documents.flatMap (·.namespaces))
  rw [← ofDocuments_eq] at hmerges
  rwa [List.nil_append, declaredIn, List.flatMap_assoc] at hmerges

end MergedNamespaces

end SolutionAtlas
