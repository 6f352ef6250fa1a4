-- SUMMARY: What is listed of the types of a namespace: the first of each id, in order, ties as in the model.
import Mathlib
import SolutionAtlas.Proofs.StableSort
import SolutionAtlas.Proofs.Text.Occurrence
import SolutionAtlas.Tool.Call

/-!
# Types of a namespace

A namespace is asked for by its full name, alone or with those below it; what lies below is set off by a dot. Of
the types declared there the first with each id is listed, and every type that has no id. They come by kind, name
and namespace, and where these agree in the order of the model.
-/

namespace SolutionAtlas

/-! ## The order of summaries -/

namespace SymbolKind

theorem mem_all (k : SymbolKind) : k ∈ all := by
  cases k <;> decide

theorem rank_injective : Function.Injective rank := by
  intro k k' h
  exact (List.idxOf_inj (mem_all k)).mp h

end SymbolKind

namespace TypeSummary

/-- What summaries are ordered by: the kind, then the name, then the namespace. -/
def sortKey (t : TypeSummary) : Nat ×ₗ String ×ₗ String :=
  toLex (t.kind.rank, toLex (t.name, t.nameSpace))

/-- A summary comes before another one in a list. Each is given with its place in the model, which decides between
summaries of one kind, name and namespace. -/
def Precedes (a b : TypeSummary × Nat) : Prop :=
  a.1.sortKey < b.1.sortKey ∨ a.1.sortKey = b.1.sortKey ∧ a.2 < b.2

theorem Precedes.ne {a b : TypeSummary × Nat} (h : Precedes a b) : a ≠ b := by
  rintro rfl
  rcases h with hkey | ⟨-, hplace⟩
  · exact lt_irrefl _ hkey
  · exact lt_irrefl _ hplace

end TypeSummary

open LoadedSolution in
theorem summaryLe_iff {a b : TypeSummary} : summaryLe a b = true ↔ a.sortKey ≤ b.sortKey := by
  rw [summaryLe, TypeSummary.sortKey, TypeSummary.sortKey, Prod.Lex.toLex_le_toLex, Prod.Lex.toLex_le_toLex]
  by_cases hkind : a.kind = b.kind
  · rw [if_neg (not_not.mpr hkind), hkind]
    by_cases hname : a.name = b.name
    · simp [hname]
    · simp [hname, lt_iff_le_and_ne]
  · have hrank : a.kind.rank ≠ b.kind.rank := fun h => hkind (SymbolKind.rank_injective h)
    simp [hkind, hrank, lt_iff_le_and_ne]

/-! ## The first of each id -/

/-- The type stands at this place, and no type in front of it has its id. One without an id shares it with none. -/
structure TypeSummary.FirstAt (declared : List TypeSummary) (i : Nat) (t : TypeSummary) : Prop where
  at_place : declared[i]? = some t
  first : ∀ id, t.id = some id → ∀ j < i, ∀ u, declared[j]? = some u → u.id ≠ some id

/-- The types of a list that are the first with their ids, with their places, as they are shown in order. -/
structure TypeSummary.Lists (declared : List TypeSummary) (listed : List (TypeSummary × Nat)) : Prop where
  mem_iff : ∀ t i, (t, i) ∈ listed ↔ FirstAt declared i t
  ordered : listed.Pairwise Precedes

namespace LoadedSolution

/-- No type of a list has the id of this one. -/
def isNew (earlier : List TypeSummary) (t : TypeSummary) : Bool :=
  t.id.isNone || earlier.all (·.id != t.id)

/-- The types that are the first with their ids, in the order of the list. -/
def firstsOf (declared : List TypeSummary) : List (TypeSummary × Nat) :=
  declared.zipIdx.filter fun (t, i) => isNew (declared.take i) t

section Firsts

variable {declared : List TypeSummary} {t : TypeSummary} {i : Nat}

theorem isNew_iff : isNew declared t = true ↔ ∀ id, t.id = some id → ∀ u ∈ declared, u.id ≠ some id := by
  cases hid : t.id <;> simp [isNew, hid]

theorem mem_firstsOf : (t, i) ∈ firstsOf declared ↔ TypeSummary.FirstAt declared i t := by
  rw [firstsOf, List.mem_filter, List.mem_zipIdx_iff_getElem?, isNew_iff]
  constructor
  · rintro ⟨hplace, hnew⟩
    refine ⟨hplace, fun id hid j hj u hu => hnew id hid u ?_⟩
    exact List.mem_iff_getElem?.mpr ⟨j, by rw [List.getElem?_take_of_lt hj, hu]⟩
  · rintro ⟨hplace, hfirst⟩
    refine ⟨hplace, fun id hid u hu => ?_⟩
    obtain ⟨j, hj, hget⟩ := List.mem_take_iff_getElem.mp hu
    obtain ⟨hbefore, hlength⟩ := lt_min_iff.mp hj
    exact hfirst id hid j hbefore u (by rw [List.getElem?_eq_getElem hlength, hget])

/-- The places of the first types ascend. -/
theorem firstsOf_ascending (declared : List TypeSummary) : (firstsOf declared).Pairwise fun a b => a.2 < b.2 := by
  refine List.Pairwise.filter _ (List.pairwise_iff_getElem.mpr fun i j hi hj hij => ?_)
  rw [List.getElem_zipIdx, List.getElem_zipIdx]
  simpa using hij

theorem firstsOf_concat (declared : List TypeSummary) (t : TypeSummary) :
    firstsOf (declared ++ [t]) =
      firstsOf declared ++ if isNew declared t then [(t, declared.length)] else [] := by
  have hbefore : ∀ p ∈ declared.zipIdx,
      isNew ((declared ++ [t]).take p.2) p.1 = isNew (declared.take p.2) p.1 := by
    intro p hp
    rw [List.take_append_of_le_length (List.mem_zipIdx' hp).1.le]
  have hlast : (declared ++ [t]).take declared.length = declared := List.take_left
  rw [firstsOf, firstsOf, List.zipIdx_append, List.filter_append, List.filter_congr hbefore]
  congr 1
  simp only [List.zipIdx_singleton, Nat.zero_add, List.filter_singleton, hlast, Bool.cond_eq_ite]

/-- Of every id that occurs a type stays. -/
theorem exists_firstsOf {id : String} :
    (∃ p ∈ firstsOf declared, p.1.id = some id) ↔ ∃ u ∈ declared, u.id = some id := by
  induction declared using List.reverseRecOn with
  | nil => simp [firstsOf]
  | append_singleton declared t ih =>
    rw [firstsOf_concat]
    simp only [List.mem_append, or_and_right, exists_or, ih]
    by_cases hnew : isNew declared t = true
    · simp [hnew]
    · have hold : t.id = some id → ∃ u ∈ declared, u.id = some id := by
        intro hid
        by_contra hnone
        refine hnew (isNew_iff.mpr fun id' hid' u hu hsame => hnone ⟨u, hu, ?_⟩)
        rw [hsame, ← hid', hid]
      simpa [hnew] using hold

/-- Adding types one by one keeps the first of each id. -/
theorem foldl_addSummary (declared : List TypeSummary) :
    declared.foldl addSummary [] = (firstsOf declared).map (·.1) := by
  induction declared using List.reverseRecOn with
  | nil => rfl
  | append_singleton declared t ih =>
    have hseen : (t.id.isSome && (declared.foldl addSummary []).any (·.id == t.id)) = !isNew declared t := by
      rw [ih, List.any_map, Bool.eq_iff_iff, Bool.not_eq_true', ← Bool.not_eq_true, isNew_iff]
      cases hid : t.id with
      | none => simp
      | some id => simpa using exists_firstsOf
    rw [List.foldl_append, List.foldl_cons, List.foldl_nil, addSummary, hseen, ih, firstsOf_concat]
    cases isNew declared t <;> simp

theorem perm_firstsOf {listed : List (TypeSummary × Nat)} (h : TypeSummary.Lists declared listed) :
    listed.Perm (firstsOf declared) := by
  have hlisted : listed.Nodup := h.ordered.imp TypeSummary.Precedes.ne
  have hfirsts : (firstsOf declared).Nodup := by
    refine (firstsOf_ascending declared).imp ?_
    rintro a b hplace rfl
    exact lt_irrefl _ hplace
  exact (List.perm_ext_iff_of_nodup hlisted hfirsts).mpr fun (t, i) => by rw [h.mem_iff, mem_firstsOf]

theorem lists_mergeSort (declared : List TypeSummary) :
    TypeSummary.Lists declared ((firstsOf declared).mergeSort fun a b => summaryLe a.1 b.1) where
  mem_iff t i := by rw [List.mem_mergeSort, mem_firstsOf]
  ordered := by
    have htrans (a b c : TypeSummary × Nat) (hab : summaryLe a.1 b.1 = true) (hbc : summaryLe b.1 c.1 = true) :
        summaryLe a.1 c.1 = true := by
      rw [summaryLe_iff] at hab hbc ⊢
      exact hab.trans hbc
    have htotal (a b : TypeSummary × Nat) : (summaryLe a.1 b.1 || summaryLe b.1 a.1) = true := by
      rw [Bool.or_eq_true, summaryLe_iff, summaryLe_iff]
      exact le_total _ _
    have hsorted := pairwise_mergeSort_ties htrans htotal (fun a => lt_irrefl a.2) (firstsOf_ascending declared)
    refine hsorted.imp fun {a b} ⟨hle, hties⟩ => ?_
    rw [summaryLe_iff] at hle hties
    rcases hle.lt_or_eq with hlt | heq
    · exact .inl hlt
    · exact .inr ⟨heq, hties heq.ge⟩

end Firsts

/-! ## The listing -/

/-- A name is that of the namespace, or that of one below it when these count too. -/
def Within (wanted : String) (withNested : Bool) (name : String) : Prop :=
  name = wanted ∨ withNested = true ∧ (wanted ++ ".").toList <+: name.toList

instance (wanted : String) (withNested : Bool) : DecidablePred (Within wanted withNested) := fun _ =>
  inferInstanceAs (Decidable (_ ∨ _))

/-- The types that are declared in a namespace, in the order of the model. -/
def declaredIn (l : LoadedSolution) (wanted : String) (withNested : Bool) : List TypeSummary :=
  (l.solution.types.filter fun x => Within wanted withNested x.2.1.name).map fun x =>
    .ofType x.2.1.name x.2.2

theorem selectsNamespace_eq (wanted : String) (withNested : Bool) (name : String) :
    selectsNamespace wanted withNested name = decide (Within wanted withNested name) := by
  rw [Bool.eq_iff_iff, decide_eq_true_iff, selectsNamespace, Within, ← Text.startsWith_iff]
  simp

theorem typesOfNamespace_eq (l : LoadedSolution) (wanted : String) (withNested : Bool) :
    l.typesOfNamespace wanted withNested =
      if l.declaredIn wanted withNested = [] then .error (.notFound .nameSpace wanted .listNamespaces)
      else .ok ⟨wanted, withNested,
        ((l.declaredIn wanted withNested).foldl addSummary []).mergeSort summaryLe⟩ := by
  simp only [typesOfNamespace, selectsNamespace_eq, declaredIn, List.isEmpty_iff, List.map_eq_nil_iff]

theorem declaredIn_eq_nil_iff {l : LoadedSolution} {wanted : String} {withNested : Bool} :
    l.declaredIn wanted withNested = [] ↔ ∀ x ∈ l.solution.types, ¬Within wanted withNested x.2.1.name := by
  simp [declaredIn]

/-- A listing of a namespace fails when no type is declared there. Otherwise it has the first type of each id and
every type without one, by kind, name and namespace, and where these agree in the order of the model. -/
theorem namespace_lists_firsts {c : Context} {l : LoadedSolution} (hl : c.loaded = some l) (d : Disk)
    {as : Arguments} {wanted : String} (hwanted : Text.nonBlank? (as.text "namespace") = some wanted) :
    let withNested := (as.flag? "include_sub_namespaces").getD false
    let answer := Tool.answer c d .getNamespaceTypes as
    (answer = .error (.query (.notFound .nameSpace wanted .listNamespaces)) ↔
        ∀ x ∈ l.solution.types, ¬Within wanted withNested x.2.1.name) ∧
      ((∃ x ∈ l.solution.types, Within wanted withNested x.2.1.name) →
        ∃ listed, TypeSummary.Lists (l.declaredIn wanted withNested) listed ∧
          answer = .ok (l.present (⟨wanted, withNested, listed.map (·.1)⟩ : NamespaceTypes))) := by
  intro withNested answer
  have hanswer : answer = Tool.ask ((l.typesOfNamespace wanted withNested).map l.present) := by
    simp only [answer, withNested, Tool.answer, hwanted, Context.requireLoaded, hl, bind, Except.bind]
    cases l.typesOfNamespace wanted ((as.flag? "include_sub_namespaces").getD false) <;> rfl
  rw [hanswer, typesOfNamespace_eq, ← declaredIn_eq_nil_iff]
  by_cases hnone : l.declaredIn wanted withNested = []
  · rw [if_pos hnone]
    refine ⟨⟨fun _ => hnone, fun _ => rfl⟩, fun ⟨x, hx, hwithin⟩ => ?_⟩
    exact absurd hwithin (declaredIn_eq_nil_iff.mp hnone x hx)
  · rw [if_neg hnone]
    refine ⟨⟨fun h => ?_, fun h => absurd h hnone⟩, fun _ => ⟨_, lists_mergeSort _, ?_⟩⟩
    · cases h
    · rw [foldl_addSummary, List.map_mergeSort (s := summaryLe) fun _ _ _ _ => rfl]
      rfl

namespace Listed

def typeOf (id : Option String) (name : String) (kind : SymbolKind) : TypeSymbol where
  symbol := ⟨id, name, name, kind, .publicAccess, [], none, []⟩
  members := []
  baseTypes := []
  interfaces := []
  isPartial := false
  isAbstract := false
  isSealed := false
  isStatic := false
  filePath := "/s/" ++ name ++ ".cs"
  relativePath := name ++ ".cs"
  lineNumber := 1

/-- Two projects declare the same type of `App`. One of them has two types without ids in a namespace below, and a
type in a namespace whose name begins alike. -/
def spaces : Solution where
  name := "S"
  path := "/s/S.sln"
  projects := [
    { name := "A", projectFilePath := "/s/A.csproj", namespaces := [
      ⟨"App", [typeOf (some "T:App.Z") "Z" .classType], "/s/Z.cs"⟩,
      ⟨"App.Core", [typeOf none "Y" .classType, typeOf none "Y" .classType], "/s/Y.cs"⟩,
      ⟨"Apps", [typeOf (some "T:Apps.X") "X" .classType], "/s/X.cs"⟩] },
    { name := "B", projectFilePath := "/s/B.csproj", namespaces := [
      ⟨"App", [typeOf (some "T:App.Z") "Z" .enumType], "/s/Z.cs"⟩] }]

def askedFor (withNested : Bool) : Arguments :=
  [("namespace", .text " App "), ("include_sub_namespaces", .flag withNested)]

end Listed

/-- Of the four types three are listed: the second `Z` has the id of the first one. -/
theorem namespace_lists_firsts_twice :
    let l := ofSolution Listed.spaces none
    Text.nonBlank? " App " = some "App" ∧ ∃ listed : List (TypeSummary × Nat),
      listed.Perm [(.ofType "App" (Listed.typeOf (some "T:App.Z") "Z" .classType), 0),
        (.ofType "App.Core" (Listed.typeOf none "Y" .classType), 1),
        (.ofType "App.Core" (Listed.typeOf none "Y" .classType), 2)] ∧
      listed.Pairwise TypeSummary.Precedes ∧
      Tool.answer { loaded := some l } {} .getNamespaceTypes (Listed.askedFor true) =
        .ok (l.present (⟨"App", true, listed.map (·.1)⟩ : NamespaceTypes)) := by
  intro l
  have hwanted : Text.nonBlank? ((Listed.askedFor true).text "namespace") = some "App" := by decide +kernel
  obtain ⟨-, hanswer⟩ := namespace_lists_firsts (c := { loaded := some l }) (l := l) rfl {} hwanted
  obtain ⟨listed, hlists, hanswer⟩ := hanswer (by decide +kernel)
  have hfirsts : firstsOf (l.declaredIn "App" true) =
      [(.ofType "App" (Listed.typeOf (some "T:App.Z") "Z" .classType), 0),
        (.ofType "App.Core" (Listed.typeOf none "Y" .classType), 1),
        (.ofType "App.Core" (Listed.typeOf none "Y" .classType), 2)] := by
    decide +kernel
  exact ⟨hwanted, listed, hfirsts ▸ perm_firstsOf hlists, hlists.ordered, hanswer⟩

end LoadedSolution

end SolutionAtlas
