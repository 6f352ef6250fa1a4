-- SUMMARY: Where merged types stand, and what of their parts they carry.
import Mathlib
import SolutionAtlas.Proofs.Analysis.Merge

/-!
# Places of merged types

Merging keeps places: namespaces stand in the order in which their names are seen first, and in each of them
the types whose first declaration is in a namespace of that name, in the order of these declarations. Later
declarations of a key add to the type in its place and to nothing else. Together with what the type of a key
is made of, this says everything about the result of merging documents.
-/

namespace SolutionAtlas

/-! ## Parts -/

section Parts

variable {γ : Type} {ps : List Declared} {e : Declared}

/-- What a merge takes from the first side that has it, the whole has from its first part that has it. -/
theorem findSome?_of_mergedParts? {f : TypeSymbol → Option γ}
    (hf : ∀ t u, f (t.merge u) = (f t).or (f u)) (h : mergedParts? ps = some e) :
    f e.type = ps.findSome? fun p => f p.type := by
  cases ps with
  | nil => cases h
  | cons first rest =>
    cases h
    suffices ∀ t, f (rest.foldl (fun u p => u.merge p.type) t) =
        (f t).or (rest.findSome? fun p => f p.type) by
      rw [this, List.findSome?_cons]
      cases f first.type <;> rfl
    intro t
    induction rest generalizing t with
    | nil => exact (Option.or_none).symm
    | cons p rest ih =>
      rw [List.foldl_cons, ih, hf, Option.or_assoc, List.findSome?_cons]
      cases f p.type <;> rfl

/-- What a merge has when one side does, the whole has when one of its parts does. -/
theorem any_of_mergedParts? {f : TypeSymbol → Bool} (hf : ∀ t u, f (t.merge u) = (f t || f u))
    (h : mergedParts? ps = some e) : f e.type = ps.any fun p => f p.type := by
  cases ps with
  | nil => cases h
  | cons first rest =>
    cases h
    rw [List.any_cons]
    dsimp only
    generalize first.type = t
    induction rest generalizing t with
    | nil => exact (Bool.or_false _).symm
    | cons p rest ih => rw [List.foldl_cons, ih, hf, Bool.or_assoc, List.any_cons]

theorem find?_members_merge (t u : TypeSymbol) (key : String) :
    (t.merge u).members.find? (·.symbol.key == key) =
      (t.members.find? (·.symbol.key == key)).or (u.members.find? (·.symbol.key == key)) := by
  rw [← List.find?_append, ← find?_unionOn, ← unionMembers_eq]
  rfl

/-- The type carries what its parts say: the union of their lists, of each member key the first member, the
first summary, and each mark that one of them has. -/
structure TypeSymbol.Combines (t : TypeSymbol) (parts : List Declared) : Prop extends t.Unites parts where
  attributes : ∀ a, a ∈ t.symbol.attributes ↔ ∃ p ∈ parts, a ∈ p.type.symbol.attributes
  firstMember : ∀ key, t.members.find? (·.symbol.key == key) =
    (parts.flatMap (·.type.members)).find? (·.symbol.key == key)
  summary : t.symbol.summary = parts.findSome? (·.type.symbol.summary)
  isAbstract : t.isAbstract = parts.any (·.type.isAbstract)
  isSealed : t.isSealed = parts.any (·.type.isSealed)
  isStatic : t.isStatic = parts.any (·.type.isStatic)

theorem combines_of_mergedParts? (h : mergedParts? ps = some e) : e.type.Combines ps where
  toUnites := unites_of_mergedParts? h
  attributes := mem_of_mergedParts? (f := fun t => t.symbol.attributes) (fun _ _ _ => mem_unionInto) h
  firstMember key := by
    rw [List.find?_flatMap]
    exact findSome?_of_mergedParts? (f := fun t => t.members.find? (·.symbol.key == key))
      (fun t u => find?_members_merge t u key) h
  summary := findSome?_of_mergedParts? (f := fun t => t.symbol.summary) (fun _ _ => rfl) h
  isAbstract := any_of_mergedParts? (fun _ _ => rfl) h
  isSealed := any_of_mergedParts? (fun _ _ => rfl) h
  isStatic := any_of_mergedParts? (fun _ _ => rfl) h

end Parts

/-! ## Places -/

/-- The keys that are declared first in a namespace of the name, in the order of these declarations. -/
def keysFirstIn (space : String) (ps : List Declared) : List String :=
  ((firstOfEach Declared.key ps).filter (·.space == space)).map Declared.key

theorem keysFirstIn_concat_of_mem {ps : List Declared} {p : Declared} (h : p.key ∈ ps.map Declared.key)
    (space : String) : keysFirstIn space (ps ++ [p]) = keysFirstIn space ps := by
  rw [keysFirstIn, firstOfEach_concat, if_pos h, keysFirstIn]

theorem keysFirstIn_concat_of_not_mem {ps : List Declared} {p : Declared}
    (h : p.key ∉ ps.map Declared.key) (space : String) :
    keysFirstIn space (ps ++ [p]) =
      keysFirstIn space ps ++ if p.space = space then [p.key] else [] := by
  rw [keysFirstIn, firstOfEach_concat, if_neg h, List.filter_append, List.map_append, keysFirstIn]
  by_cases hspace : p.space = space <;> simp [hspace]

theorem keysFirstIn_eq_nil {space : String} {ps : List Declared} (h : ∀ p ∈ ps, p.space ≠ space) :
    keysFirstIn space ps = [] := by
  rw [keysFirstIn, List.map_eq_nil_iff, List.filter_eq_nil_iff]
  intro p hp
  simpa using h p (mem_of_mem_firstUnseen hp)

/-- A namespace without its types. -/
def Namespace.heading (n : Namespace) : String × String :=
  (n.name, n.filePath)

namespace MergedNamespaces

variable {m : MergedNamespaces} {ns : List Namespace} {ps : List Declared}

/-- The loop has gone through some namespaces with these declarations, and all stand in their places. -/
structure Places (m : MergedNamespaces) (ns : List Namespace) (ps : List Declared) : Prop where
  headings : m.namespaces.map Namespace.heading = (firstOfEach (·.name) ns).map Namespace.heading
  keys : ∀ n ∈ m.namespaces, n.types.map (·.symbol.key) = keysFirstIn n.name ps
  spaces : ∀ p ∈ ps, p.space ∈ m.namespaces.map (·.name)

theorem Places.names (h : m.Places ns ps) :
    m.namespaces.map (·.name) = (firstOfEach (·.name) ns).map (·.name) := by
  have hfst := congrArg (List.map Prod.fst) h.headings
  simpa only [List.map_map, Function.comp_def, Namespace.heading] using hfst

theorem Places.empty : Places {} [] [] where
  headings := rfl
  keys := by simp
  spaces := by simp

theorem Merges.holdsType_iff (h : m.Merges ps) {key : String} :
    m.holdsType key = true ↔ key ∈ ps.map Declared.key := by
  have hparts : partsOf key ps ≠ [] ↔ key ∈ ps.map Declared.key := by
    simp [partsOf, List.filter_eq_nil_iff]
  rw [← hparts]
  refine ⟨h.partsOf_ne_nil, fun hne => ?_⟩
  by_contra hheld
  exact hne (h.partsOf_eq_nil (Bool.eq_false_iff.mpr hheld))

theorem Places.addNamespace (h : m.Places ns ps) (n : Namespace) :
    (m.addNamespace n).Places (ns ++ [n]) ps := by
  have hseen : (m.namespaces.any (·.name == n.name)) = true ↔ n.name ∈ ns.map (·.name) := by
    rw [← mem_keys_firstOfEach, ← h.names]
    simp
  rw [MergedNamespaces.addNamespace]
  split
  · rename_i hold
    refine ⟨?_, h.keys, h.spaces⟩
    rw [firstOfEach_concat, if_pos (hseen.mp hold)]
    exact h.headings
  · rename_i hnew
    have hfree : n.name ∉ m.namespaces.map (·.name) := by simpa using hnew
    refine ⟨?_, fun k hk => ?_, fun p hp => ?_⟩
    · rw [firstOfEach_concat, if_neg (mt hseen.mpr hnew), List.map_append, List.map_append, h.headings]
      rfl
    · rcases List.mem_append.mp hk with hold | hlast
      · exact h.keys k hold
      · obtain rfl := List.mem_singleton.mp hlast
        refine (keysFirstIn_eq_nil fun p hp heq => ?_).symm
        exact hfree (heq ▸ h.spaces p hp)
    · rw [List.map_append]
      exact List.mem_append_left _ (h.spaces p hp)

theorem keys_mergeType (hkeys : ∀ n ∈ m.namespaces, n.types.map (·.symbol.key) = keysFirstIn n.name ps)
    {space : String} {t : TypeSymbol} (hold : t.symbol.key ∈ ps.map Declared.key) :
    ∀ n ∈ (m.mergeType t).namespaces,
      n.types.map (·.symbol.key) = keysFirstIn n.name (ps ++ [⟨space, t⟩]) := by
  intro n hn
  obtain ⟨k, hk, rfl⟩ := List.mem_map.mp hn
  rw [keysFirstIn_concat_of_mem hold, ← hkeys k hk, List.map_map]
  refine List.map_congr_left fun u _ => ?_
  simp only [Function.comp_apply]
  split <;> rfl

theorem keys_appendType (hkeys : ∀ n ∈ m.namespaces, n.types.map (·.symbol.key) = keysFirstIn n.name ps)
    {space : String} {t : TypeSymbol} (hnew : t.symbol.key ∉ ps.map Declared.key) :
    ∀ n ∈ (m.appendType space t).namespaces,
      n.types.map (·.symbol.key) = keysFirstIn n.name (ps ++ [⟨space, t⟩]) := by
  intro n hn
  obtain ⟨k, hk, rfl⟩ := List.mem_map.mp hn
  rw [keysFirstIn_concat_of_not_mem hnew]
  by_cases hspace : space = k.name
  · subst hspace
    simp [hkeys k hk, Declared.key_mk]
  · simp [hkeys k hk, hspace, Ne.symm hspace]

theorem Places.addType (h : m.Places ns ps) (hm : m.Merges ps) {space : String}
    (hspace : space ∈ m.namespaces.map (·.name)) (t : TypeSymbol) :
    (m.addType space t).Places ns (ps ++ [⟨space, t⟩]) where
  headings := (map_addType (fun _ _ => rfl) space m t).trans h.headings
  keys := by
    have hheld : m.holdsType t.symbol.key = true ↔ t.symbol.key ∈ ps.map Declared.key := hm.holdsType_iff
    rw [MergedNamespaces.addType]
    split
    · rename_i hold
      exact keys_mergeType h.keys (hheld.mp hold)
    · rename_i hnew
      exact keys_appendType h.keys (mt hheld.mpr hnew)
  spaces p hp := by
    rw [names_addType]
    rcases List.mem_append.mp hp with hold | hlast
    · exact h.spaces p hold
    · rw [List.mem_singleton.mp hlast]
      exact hspace

theorem Places.add (h : m.Places ns ps) (hm : m.Merges ps) (n : Namespace) :
    (m.add n).Places (ns ++ [n]) (ps ++ n.types.map (Declared.mk n.name)) := by
  unfold MergedNamespaces.add
  have hspace := mem_names_addNamespace m n
  have hplaces := h.addNamespace n
  have hmerges := hm.addNamespace n
  generalize m.addNamespace n = m' at hspace hplaces hmerges
  clear h hm
  induction n.types generalizing m' ps with
  | nil =>
    rw [List.map_nil, List.append_nil]
    exact hplaces
  | cons t ts ih =>
    have hspace' := names_addType n.name m' t ▸ hspace
    have hnext := ih _ hspace' (hplaces.addType hmerges hspace t) (hmerges.addType hspace t)
    rwa [List.append_assoc] at hnext

theorem Places.foldl_add (h : m.Places ns ps) (hm : m.Merges ps) (more : List Namespace) :
    (more.foldl MergedNamespaces.add m).Places (ns ++ more) (ps ++ declaredIn more) := by
  induction more generalizing m ns ps with
  | nil =>
    rw [List.append_nil, declaredIn, List.flatMap_nil, List.append_nil]
    exact h
  | cons n more ih =>
    have hnext := ih (h.add hm n) (hm.add n)
    rwa [List.append_assoc, List.append_assoc] at hnext

theorem places_ofDocuments (documents : List AnalyzedDocument) :
    (ofDocuments documents).Places (documents.flatMap (·.namespaces)) (declaredBy documents) := by
  have hplaces := Places.empty.foldl_add .empty (documents.flatMap (·.namespaces))
  rw [← ofDocuments_eq] at hplaces
  rwa [List.nil_append, List.nil_append, declaredIn, List.flatMap_assoc] at hplaces

/-! ## The result -/

theorem Merges.mem_keys_iff (h : m.Merges ps) (key : String) :
    key ∈ m.types.map Declared.key ↔ key ∈ ps.map Declared.key := by
  rw [← h.holdsType_iff, MergedNamespaces.holdsType_iff, List.mem_map]

/-- Merging documents loses and invents nothing. Each namespace stands once, in the order in which the names
are seen first. Each key of a declared type is there once, in the place of its first declaration, and no
other. The type of a key carries what all declarations of the key say together, and the keys reported as
repeated are those declared at least twice. -/
theorem ofDocuments_combines (documents : List AnalyzedDocument) :
    (((ofDocuments documents).namespaces.map (·.name)).Nodup ∧
      (ofDocuments documents).namespaces.map Namespace.heading =
        (firstOfEach (·.name) (documents.flatMap (·.namespaces))).map Namespace.heading) ∧
    (((ofDocuments documents).types.map Declared.key).Nodup ∧
      (∀ key, key ∈ (ofDocuments documents).types.map Declared.key ↔
        key ∈ (declaredBy documents).map Declared.key) ∧
      ∀ n ∈ (ofDocuments documents).namespaces,
        n.types.map (·.symbol.key) = keysFirstIn n.name (declaredBy documents)) ∧
    (∀ e ∈ (ofDocuments documents).types, e.type.Combines (partsOf e.key (declaredBy documents))) ∧
    ∀ key, key ∈ (ofDocuments documents).repeated ↔ 2 ≤ (partsOf key (declaredBy documents)).length := by
  have hmerges := merges_ofDocuments documents
  have hplaces := places_ofDocuments documents
  refine ⟨⟨hmerges.namesNodup, hplaces.headings⟩, ⟨hmerges.keysNodup, hmerges.mem_keys_iff, hplaces.keys⟩,
    ?_, hmerges.mem_repeated⟩
  intro e he
  exact combines_of_mergedParts? ((hmerges.mem_types e).mp he)

end MergedNamespaces

end SolutionAtlas
