-- SUMMARY: The slots that are kept while documents are merged lead to the types they are kept for.
import Mathlib
import SolutionAtlas.Analysis.Document
import SolutionAtlas.Proofs.Model.Merge
import SolutionAtlas.Proofs.Places

/-!
# Slots of merged types

While documents are merged, the places of namespaces and types are kept in tables, and a type is changed in
its slot. The same can be said without places: a declaration is merged into whatever types have its key, or
else put behind the others of whatever namespaces have its name. The two agree because the tables stay right,
and with them no name and no key ever stands twice.
-/

namespace SolutionAtlas

/-! ## Merging by names and keys -/

namespace MergedNamespaces

/-- A type of a given key is there. -/
def holdsType (m : MergedNamespaces) (key : String) : Bool :=
  m.namespaces.any fun n => n.types.any (·.symbol.key == key)

/-- Makes sure of a namespace. -/
def addNamespace (m : MergedNamespaces) (n : Namespace) : MergedNamespaces :=
  if m.namespaces.any (·.name == n.name) then m
  else { m with namespaces := m.namespaces ++ [{ n with types := [] }] }

/-- Merges a declaration into the types of the same key. -/
def mergeType (m : MergedNamespaces) (t : TypeSymbol) : MergedNamespaces :=
  { namespaces := m.namespaces.map fun n => { n with
      types := n.types.map fun u => if u.symbol.key == t.symbol.key then u.merge t else u }
    repeated := if m.repeated.contains t.symbol.key then m.repeated else m.repeated ++ [t.symbol.key] }

/-- Puts a type behind the others of the namespaces of a name. -/
def appendType (m : MergedNamespaces) (space : String) (t : TypeSymbol) : MergedNamespaces :=
  { m with namespaces := m.namespaces.map fun n =>
      if n.name == space then { n with types := n.types ++ [t] } else n }

def addType (space : String) (m : MergedNamespaces) (t : TypeSymbol) : MergedNamespaces :=
  if m.holdsType t.symbol.key then m.mergeType t else m.appendType space t

def add (m : MergedNamespaces) (n : Namespace) : MergedNamespaces :=
  n.types.foldl (addType n.name) (m.addNamespace n)

end MergedNamespaces

/-! ## Merging by places -/

/-- The key of the type in a slot: the place of its namespace, and its place in the namespace. -/
def keyInSlot (ns : List Namespace) (slot : Nat × Nat) : Option String :=
  (ns[slot.1]?).bind fun n => Table.keyIn (·.symbol.key) n.types slot.2

theorem keyInSlot_eq_some {ns : List Namespace} {i j : Nat} {key : String} :
    keyInSlot ns (i, j) = some key ↔
      ∃ n, ns[i]? = some n ∧ ∃ u, n.types[j]? = some u ∧ u.symbol.key = key := by
  simp only [keyInSlot, Option.bind_eq_some_iff, Table.keyIn_eq_some]

namespace NamespaceMerge

variable {m : NamespaceMerge}

/-- Every namespace is found where it stands by its name, and every type by its key. -/
structure Placed (m : NamespaceMerge) : Prop where
  spaces : m.positions.Locates (Table.keyIn (·.name) m.merged.namespaces)
  types : m.typeSlots.Locates (keyInSlot m.merged.namespaces)

theorem Placed.empty : Placed {} where
  spaces := Table.locates_nil
  types key slot := by simp [keyInSlot]

/-! ### Namespaces -/

theorem Placed.merged_placeOf (h : m.Placed) (n : Namespace) :
    (m.placeOf n).2.merged = m.merged.addNamespace n := by
  have hany : m.merged.namespaces.any (·.name == n.name) = true ↔ n.name ∈ m.merged.namespaces.map (·.name) := by
    simp
  rw [placeOf, MergedNamespaces.addNamespace]
  cases hplace : m.positions.get? n.name with
  | none => rw [if_neg (mt hany.mp (h.spaces.get?_eq_none_iff_not_mem.mp hplace))]
  | some i =>
    obtain ⟨k, hk, hname⟩ := Table.keyIn_eq_some.mp ((h.spaces _ i).mp hplace)
    rw [if_pos (hany.mpr (List.mem_map.mpr ⟨k, List.mem_of_getElem? hk, hname⟩))]

/-- The place that is given is that of the namespace. -/
theorem Placed.keyIn_placeOf (h : m.Placed) (n : Namespace) :
    Table.keyIn (·.name) (m.placeOf n).2.merged.namespaces (m.placeOf n).1 = some n.name := by
  rw [placeOf]
  cases hplace : m.positions.get? n.name with
  | none => simp [Table.keyIn]
  | some i => exact (h.spaces _ i).mp hplace

theorem Placed.placeOf (h : m.Placed) (n : Namespace) : (m.placeOf n).2.Placed := by
  rw [NamespaceMerge.placeOf]
  cases hplace : m.positions.get? n.name with
  | some i => exact h
  | none =>
    refine ⟨h.spaces.concat (x := { n with types := [] }) hplace, h.types.congr fun slot => ?_⟩
    -- The namespace at the end has no types yet.
    rcases lt_trichotomy slot.1 m.merged.namespaces.length with hbefore | hlast | hbehind
    · rw [keyInSlot, keyInSlot, List.getElem?_append_left hbefore]
    · rw [keyInSlot, keyInSlot, hlast, List.getElem?_concat_length, List.getElem?_eq_none le_rfl]
      simp [Table.keyIn]
    · have hnone : (m.merged.namespaces ++ [{ n with types := [] }])[slot.1]? = none :=
        List.getElem?_eq_none (by simpa using hbehind)
      rw [keyInSlot, keyInSlot, hnone, List.getElem?_eq_none hbehind.le]

/-! ### Types -/

theorem keyIn_mergeInto (slot : Nat × Nat) (m : NamespaceMerge) (t : TypeSymbol) (i : Nat) :
    Table.keyIn (·.name) (m.mergeInto slot t).merged.namespaces i =
      Table.keyIn (·.name) m.merged.namespaces i := by
  refine Table.keyIn_modify ?_ slot.1 i
  exact fun _ => rfl

theorem keyIn_append (i : Nat) (m : NamespaceMerge) (t : TypeSymbol) (j : Nat) :
    Table.keyIn (·.name) (m.append i t).merged.namespaces j =
      Table.keyIn (·.name) m.merged.namespaces j := by
  refine Table.keyIn_modify ?_ i j
  exact fun _ => rfl

theorem Placed.get?_eq_none_iff (h : m.Placed) {key : String} :
    m.typeSlots.get? key = none ↔ m.merged.holdsType key = false := by
  rw [h.types.get?_eq_none_iff, MergedNamespaces.holdsType]
  simp only [Prod.forall, Ne, keyInSlot_eq_some, List.any_eq_false, List.any_eq_true, beq_iff_eq]
  constructor
  · rintro hnone n hn ⟨u, hu, hkey⟩
    obtain ⟨i, hi⟩ := List.mem_iff_getElem?.mp hn
    obtain ⟨j, hj⟩ := List.mem_iff_getElem?.mp hu
    exact hnone i j ⟨n, hi, u, hj, hkey⟩
  · rintro hnone i j ⟨n, hi, u, hj, hkey⟩
    exact hnone n (List.mem_of_getElem? hi) ⟨u, List.mem_of_getElem? hj, hkey⟩

/-- The type in the slot of its key is the only one that has it. -/
theorem Placed.merged_mergeInto (h : m.Placed) {slot : Nat × Nat} {t : TypeSymbol}
    (hslot : m.typeSlots.get? t.symbol.key = some slot) :
    (m.mergeInto slot t).merged = m.merged.mergeType t := by
  have honly {i j : Nat} {n : Namespace} {u : TypeSymbol} (hn : m.merged.namespaces[i]? = some n)
      (hu : n.types[j]? = some u) : u.symbol.key = t.symbol.key ↔ slot = (i, j) := by
    rw [← Option.some.injEq slot, ← hslot, h.types, keyInSlot_eq_some]
    constructor
    · exact fun hkey => ⟨n, hn, u, hu, hkey⟩
    · rintro ⟨n', hn', u', hu', hkey⟩
      cases hn.symm.trans hn'
      cases hu.symm.trans hu'
      exact hkey
  rw [mergeInto, MergedNamespaces.mergeType, MergedNamespaces.mk.injEq]
  refine ⟨(map_eq_modify fun i n hn => ?_).symm, rfl⟩
  by_cases hi : slot.1 = i
  · subst hi
    rw [if_pos rfl, map_eq_modify fun j u hu => ?_]
    simp only [beq_iff_eq, honly hn hu, Prod.ext_iff, true_and]
  · have hothers : ∀ u ∈ n.types, u.symbol.key ≠ t.symbol.key := by
      intro u hu hkey
      obtain ⟨j, hj⟩ := List.mem_iff_getElem?.mp hu
      exact hi (congrArg Prod.fst ((honly hn hj).mp hkey))
    have hsame : n.types.map (fun u => if u.symbol.key == t.symbol.key then u.merge t else u) = n.types := by
      refine (List.map_congr_left fun u hu => ?_).trans (List.map_id _)
      simp [hothers u hu]
    rw [if_neg hi, hsame]

theorem Placed.mergeInto (h : m.Placed) (slot : Nat × Nat) (t : TypeSymbol) : (m.mergeInto slot t).Placed where
  spaces := h.spaces.congr (keyIn_mergeInto slot m t)
  types := by
    refine h.types.congr fun other => ?_
    rw [keyInSlot, keyInSlot, NamespaceMerge.mergeInto]
    dsimp only
    rw [List.getElem?_modify]
    cases m.merged.namespaces[other.1]? with
    | none => rfl
    | some n =>
      rw [Option.map_eq_map, Option.map_some, Option.bind_some, Option.bind_some]
      split
      · exact Table.keyIn_modify (fun u => u.key_merge t) slot.2 other.2
      · rfl

/-- The namespace in a place is the only one of its name. -/
theorem Placed.merged_append (h : m.Placed) {i : Nat} {space : String}
    (hspace : Table.keyIn (·.name) m.merged.namespaces i = some space) (t : TypeSymbol) :
    (m.append i t).merged = m.merged.appendType space t := by
  rw [append, MergedNamespaces.appendType, MergedNamespaces.mk.injEq]
  refine ⟨(map_eq_modify fun j n hn => ?_).symm, rfl⟩
  have hname : n.name = space ↔ i = j := by
    constructor
    · exact fun heq => h.spaces.inj hspace (Table.keyIn_eq_some.mpr ⟨n, hn, heq⟩)
    · rintro rfl
      obtain ⟨k, hk, hname⟩ := Table.keyIn_eq_some.mp hspace
      cases hn.symm.trans hk
      exact hname
  simp only [beq_iff_eq, hname]

theorem Placed.append (h : m.Placed) {i : Nat} {n : Namespace} (hn : m.merged.namespaces[i]? = some n)
    {t : TypeSymbol} (hnew : m.typeSlots.get? t.symbol.key = none) : (m.append i t).Placed where
  spaces := h.spaces.congr (keyIn_append i m t)
  types := by
    rw [NamespaceMerge.append]
    dsimp only
    have hspaces (j : Nat) : (m.merged.namespaces.modify i fun n => { n with types := n.types ++ [t] })[j]? =
        if i = j then some { n with types := n.types ++ [t] } else m.merged.namespaces[j]? := by
      rw [List.getElem?_modify]
      split
      · rename_i hj
        subst hj
        rw [hn]
        rfl
      · rw [Option.map_eq_map, Option.map_id']
    rw [hn, Option.map_some, Option.getD_some]
    refine h.types.insert hnew ?_ ?_ fun slot hslot => ?_
    · rw [keyInSlot, hn, Option.bind_some, Table.keyIn, List.getElem?_eq_none le_rfl]
      rfl
    · rw [keyInSlot, hspaces, if_pos rfl, Option.bind_some, Table.keyIn_concat_self]
    · rw [keyInSlot, keyInSlot, hspaces]
      split
      · rename_i hi
        have hj : slot.2 ≠ n.types.length := fun heq => hslot (Prod.ext hi.symm heq)
        rw [← hi, hn, Option.bind_some, Option.bind_some, Table.keyIn_concat_of_ne hj]
      · rfl

/-- A type is added as it would be without places, and everything is still found where it stands. -/
theorem Placed.addType (h : m.Placed) {i : Nat} {space : String}
    (hspace : Table.keyIn (·.name) m.merged.namespaces i = some space) (t : TypeSymbol) :
    (m.addType i t).merged = m.merged.addType space t ∧ (m.addType i t).Placed ∧
      Table.keyIn (·.name) (m.addType i t).merged.namespaces i = some space := by
  rw [NamespaceMerge.addType, MergedNamespaces.addType]
  cases hslot : m.typeSlots.get? t.symbol.key with
  | none =>
    obtain ⟨n, hn, -⟩ := Table.keyIn_eq_some.mp hspace
    rw [if_neg (by simp [h.get?_eq_none_iff.mp hslot])]
    exact ⟨h.merged_append hspace t, h.append hn hslot, (keyIn_append i m t i).trans hspace⟩
  | some slot =>
    have hheld : m.merged.holdsType t.symbol.key = true := by
      rw [← Bool.not_eq_false, ← h.get?_eq_none_iff, hslot]
      exact Option.some_ne_none slot
    rw [if_pos hheld]
    exact ⟨h.merged_mergeInto hslot, h.mergeInto slot t, (keyIn_mergeInto slot m t i).trans hspace⟩

/-! ### The loop -/

theorem Placed.add (h : m.Placed) (n : Namespace) : (m.add n).merged = m.merged.add n ∧ (m.add n).Placed := by
  rw [NamespaceMerge.add, MergedNamespaces.add, ← h.merged_placeOf n]
  have hspace := h.keyIn_placeOf n
  have hplaced := h.placeOf n
  generalize m.placeOf n = placed at hspace hplaced ⊢
  obtain ⟨i, m'⟩ := placed
  dsimp only at hspace hplaced ⊢
  clear h
  induction n.types generalizing m' with
  | nil => exact ⟨rfl, hplaced⟩
  | cons t ts ih =>
    obtain ⟨hmerged, hplaced', hspace'⟩ := hplaced.addType hspace t
    rw [List.foldl_cons, List.foldl_cons, ← hmerged]
    exact ih _ hspace' hplaced'

theorem Placed.foldl_add (h : m.Placed) (ns : List Namespace) :
    (ns.foldl NamespaceMerge.add m).merged = ns.foldl MergedNamespaces.add m.merged := by
  induction ns generalizing m with
  | nil => rfl
  | cons n ns ih =>
    obtain ⟨hmerged, hplaced⟩ := h.add n
    rw [List.foldl_cons, List.foldl_cons, ih hplaced, hmerged]

end NamespaceMerge

/-- Merging by places comes to the same as merging by names and keys. -/
theorem MergedNamespaces.ofDocuments_eq (documents : List AnalyzedDocument) :
    ofDocuments documents = (documents.flatMap (·.namespaces)).foldl add {} :=
  NamespaceMerge.Placed.empty.foldl_add _

end SolutionAtlas
