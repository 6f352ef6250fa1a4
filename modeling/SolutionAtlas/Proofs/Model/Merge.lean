-- SUMMARY: Merging declarations of one type: grouping does not matter, nor does merging one again.
import Mathlib
import SolutionAtlas.Model.Symbol
import SolutionAtlas.Proofs.Distinct

/-!
# Merging declarations

To merge a declaration into a type is to take a union in each of its lists, where an element of the second
list is added unless its key is there. Lists are told apart by their elements, and members by their keys.
Unions associate, and so does merging. A type that covers a declaration, in that it has everything the
declaration could add, is not changed by it; what was merged in once is covered from then on.
-/

namespace SolutionAtlas

/-! ## Unions -/

section Unions

variable {α β : Type} [DecidableEq β] {key : α → β} {xs ys : List α}

/-- The elements of both lists. Of the second list those are left out whose key is there already. -/
def unionOn (key : α → β) (xs ys : List α) : List α :=
  xs ++ firstUnseen key (xs.map key) ys

theorem mem_keys_unionOn {k : β} :
    k ∈ (unionOn key xs ys).map key ↔ k ∈ xs.map key ∨ k ∈ ys.map key := by
  rw [unionOn, List.map_append, List.mem_append, mem_keys_firstUnseen]
  tauto

theorem mem_of_mem_unionOn {x : α} (h : x ∈ unionOn key xs ys) : x ∈ xs ∨ x ∈ ys :=
  (List.mem_append.mp h).imp id mem_of_mem_firstUnseen

/-- Of several elements with one key the first is found. -/
theorem find?_unionOn (key : α → β) (xs ys : List α) (k : β) :
    (unionOn key xs ys).find? (key · == k) = (xs ++ ys).find? (key · == k) := by
  rw [unionOn, List.find?_append, List.find?_append]
  by_cases hk : k ∈ xs.map key
  · obtain ⟨x, hx, hkey⟩ := List.mem_map.mp hk
    have hsome : (xs.find? (key · == k)).isSome = true :=
      List.find?_isSome.mpr ⟨x, hx, beq_iff_eq.mpr hkey⟩
    rw [Option.or_of_isSome hsome, Option.or_of_isSome hsome]
  · rw [find?_firstUnseen hk]

theorem unionOn_assoc (key : α → β) (xs ys zs : List α) :
    unionOn key (unionOn key xs ys) zs = unionOn key xs (unionOn key ys zs) := by
  have hseen : firstUnseen key ((unionOn key xs ys).map key) zs =
      firstUnseen key (ys.map key ++ xs.map key ++ ys.map key) zs := by
    apply firstUnseen_congr
    intro k
    rw [mem_keys_unionOn]
    simp only [List.mem_append]
    tauto
  calc unionOn key (unionOn key xs ys) zs
    _ = xs ++ (firstUnseen key (xs.map key) ys ++
          firstUnseen key (ys.map key ++ xs.map key ++ ys.map key) zs) := by
      rw [← hseen, ← List.append_assoc]
      rfl
    _ = xs ++ (firstUnseen key (xs.map key) ys ++
          firstUnseen key (ys.map key ++ xs.map key) (firstUnseen key (ys.map key) zs)) := by
      rw [firstUnseen_firstUnseen]
    _ = unionOn key xs (unionOn key ys zs) := by
      rw [← firstUnseen_append]
      rfl

/-- Nothing is added exactly when all keys are there. -/
theorem unionOn_eq_left_iff : unionOn key xs ys = xs ↔ ys.map key ⊆ xs.map key := by
  constructor
  · intro h k hk
    rw [← h]
    exact mem_keys_unionOn.mpr (.inr hk)
  · intro h
    suffices hnone : firstUnseen key (xs.map key) ys = [] by rw [unionOn, hnone, List.append_nil]
    apply List.map_eq_nil_iff.mp
    apply List.eq_nil_iff_forall_not_mem.mpr
    intro k hk
    obtain ⟨hys, hxs⟩ := mem_keys_firstUnseen.mp hk
    exact hxs (h hys)

end Unions

/-- Elements are told apart by themselves. -/
theorem unionInto_eq {α : Type} [DecidableEq α] (xs ys : List α) : unionInto xs ys = unionOn id xs ys :=
  foldl_eq_append_firstUnseen id (fun acc y => by simp) xs ys

/-- Members are told apart by their keys. -/
theorem unionMembers_eq (xs ys : List Member) : unionMembers xs ys = unionOn (·.symbol.key) xs ys :=
  foldl_eq_append_firstUnseen _ (fun acc y => by simp) xs ys

theorem mem_unionInto {α : Type} [DecidableEq α] {x : α} {xs ys : List α} :
    x ∈ unionInto xs ys ↔ x ∈ xs ∨ x ∈ ys := by
  have h := @mem_keys_unionOn α α _ id xs ys x
  simpa only [List.map_id, ← unionInto_eq] using h

theorem unionInto_assoc {α : Type} [DecidableEq α] (xs ys zs : List α) :
    unionInto (unionInto xs ys) zs = unionInto xs (unionInto ys zs) := by
  simp only [unionInto_eq, unionOn_assoc]

theorem unionInto_eq_left_iff {α : Type} [DecidableEq α] {xs ys : List α} :
    unionInto xs ys = xs ↔ ys ⊆ xs := by
  rw [unionInto_eq, unionOn_eq_left_iff, List.map_id, List.map_id]

theorem nodup_unionInto {α : Type} [DecidableEq α] {xs ys : List α} :
    (unionInto xs ys).Nodup ↔ xs.Nodup := by
  rw [unionInto_eq, unionOn, List.map_id, List.nodup_append']
  refine ⟨And.left, fun h => ⟨h, nodup_firstUnseen xs ys, ?_⟩⟩
  intro x hx hnew
  exact (mem_firstUnseen.mp hnew).2 hx

theorem mem_keys_unionMembers {key : String} {xs ys : List Member} :
    key ∈ (unionMembers xs ys).map (·.symbol.key) ↔
      key ∈ xs.map (·.symbol.key) ∨ key ∈ ys.map (·.symbol.key) := by
  rw [unionMembers_eq, mem_keys_unionOn]

theorem mem_of_mem_unionMembers {m : Member} {xs ys : List Member} (h : m ∈ unionMembers xs ys) :
    m ∈ xs ∨ m ∈ ys := by
  rw [unionMembers_eq] at h
  exact mem_of_mem_unionOn h

theorem unionMembers_assoc (xs ys zs : List Member) :
    unionMembers (unionMembers xs ys) zs = unionMembers xs (unionMembers ys zs) := by
  simp only [unionMembers_eq, unionOn_assoc]

/-! ## Merged types -/

namespace TypeSymbol

variable {t u v : TypeSymbol}

/-- The keys of the members of a type. -/
def memberKeys (t : TypeSymbol) : List String :=
  t.members.map (·.symbol.key)

@[simp] theorem key_merge (t u : TypeSymbol) : (t.merge u).symbol.key = t.symbol.key := rfl

theorem merge_assoc (t u v : TypeSymbol) : (t.merge u).merge v = t.merge (u.merge v) := by
  simp only [merge, unionInto_assoc, unionMembers_assoc, Option.or_assoc, Bool.or_assoc]

/-- The type has all that merging the other one could add. -/
structure Covers (t u : TypeSymbol) : Prop where
  locations : u.symbol.locations ⊆ t.symbol.locations
  attributes : u.symbol.attributes ⊆ t.symbol.attributes
  summary : t.symbol.summary = none → u.symbol.summary = none
  baseTypes : u.baseTypes ⊆ t.baseTypes
  interfaces : u.interfaces ⊆ t.interfaces
  memberKeys : u.memberKeys ⊆ t.memberKeys
  isAbstract : u.isAbstract = true → t.isAbstract = true
  isSealed : u.isSealed = true → t.isSealed = true
  isStatic : u.isStatic = true → t.isStatic = true

theorem Covers.trans (htu : t.Covers u) (huv : u.Covers v) : t.Covers v where
  locations := List.Subset.trans huv.locations htu.locations
  attributes := List.Subset.trans huv.attributes htu.attributes
  summary h := huv.summary (htu.summary h)
  baseTypes := List.Subset.trans huv.baseTypes htu.baseTypes
  interfaces := List.Subset.trans huv.interfaces htu.interfaces
  memberKeys := List.Subset.trans huv.memberKeys htu.memberKeys
  isAbstract h := htu.isAbstract (huv.isAbstract h)
  isSealed h := htu.isSealed (huv.isSealed h)
  isStatic h := htu.isStatic (huv.isStatic h)

theorem covers_merge_left (t u : TypeSymbol) : (t.merge u).Covers t where
  locations _ h := mem_unionInto.mpr (.inl h)
  attributes _ h := mem_unionInto.mpr (.inl h)
  summary h := (Option.or_eq_none_iff.mp h).1
  baseTypes _ h := mem_unionInto.mpr (.inl h)
  interfaces _ h := mem_unionInto.mpr (.inl h)
  memberKeys _ h := mem_keys_unionMembers.mpr (.inl h)
  isAbstract h := by simp [merge, h]
  isSealed h := by simp [merge, h]
  isStatic h := by simp [merge, h]

theorem covers_merge_right (t u : TypeSymbol) : (t.merge u).Covers u where
  locations _ h := mem_unionInto.mpr (.inr h)
  attributes _ h := mem_unionInto.mpr (.inr h)
  summary h := (Option.or_eq_none_iff.mp h).2
  baseTypes _ h := mem_unionInto.mpr (.inr h)
  interfaces _ h := mem_unionInto.mpr (.inr h)
  memberKeys _ h := mem_keys_unionMembers.mpr (.inr h)
  isAbstract h := by simp [merge, h]
  isSealed h := by simp [merge, h]
  isStatic h := by simp [merge, h]

/-- A merged type is changed exactly by what it does not cover. -/
theorem merge_eq_self_iff : t.merge u = t ↔ t.isPartial = true ∧ t.Covers u := by
  constructor
  · intro h
    exact ⟨by rw [← h]; rfl, h ▸ covers_merge_right t u⟩
  · rintro ⟨hpartial, h⟩
    have hsummary : t.symbol.summary.or u.symbol.summary = t.symbol.summary := by
      cases hs : t.symbol.summary with
      | none => rw [h.summary hs, Option.or_none]
      | some s => rfl
    have hmembers : unionMembers t.members u.members = t.members := by
      rw [unionMembers_eq]
      exact unionOn_eq_left_iff.mpr h.memberKeys
    simp only [merge, unionInto_eq_left_iff.mpr h.locations, unionInto_eq_left_iff.mpr h.attributes,
      unionInto_eq_left_iff.mpr h.baseTypes, unionInto_eq_left_iff.mpr h.interfaces, hsummary, hmembers,
      Bool.or_eq_left_iff_imp.mpr h.isAbstract, Bool.or_eq_left_iff_imp.mpr h.isSealed,
      Bool.or_eq_left_iff_imp.mpr h.isStatic, ← hpartial]

/-- The declaration took part in one of the merges that made the type, on either side. -/
inductive AbsorbedBy (u : TypeSymbol) : TypeSymbol → Prop
  | into (t : TypeSymbol) : AbsorbedBy u (t.merge u)
  | onto (t : TypeSymbol) : AbsorbedBy u (u.merge t)
  | left {t : TypeSymbol} (h : AbsorbedBy u t) (v : TypeSymbol) : AbsorbedBy u (t.merge v)
  | right (v : TypeSymbol) {t : TypeSymbol} (h : AbsorbedBy u t) : AbsorbedBy u (v.merge t)

theorem AbsorbedBy.isPartial (h : u.AbsorbedBy t) : t.isPartial = true := by
  cases h <;> rfl

theorem AbsorbedBy.covers (h : u.AbsorbedBy t) : t.Covers u := by
  induction h with
  | into t => exact covers_merge_right t u
  | onto t => exact covers_merge_left u t
  | left h v ih => exact (covers_merge_left _ v).trans ih
  | right v h ih => exact (covers_merge_right v _).trans ih

/-- Declarations can be merged in any grouping, with the same result in every field; and what a type has
absorbed, in whatever grouping, can be merged into it again without effect. -/
theorem merge_assoc_and_absorbed :
    (∀ t u v : TypeSymbol, (t.merge u).merge v = t.merge (u.merge v)) ∧
      ∀ t u : TypeSymbol, u.AbsorbedBy t → t.merge u = t :=
  ⟨merge_assoc, fun _ _ h => merge_eq_self_iff.mpr ⟨h.isPartial, h.covers⟩⟩

namespace Example

/-- A part of a class in one file. Its base types and its methods may be listed twice. -/
def part (file : String) (summary : Option String) (bases methods : List String) : TypeSymbol where
  symbol :=
    { uniqueId := some "T:K", name := "K", signature := "K", kind := .classType
      accessibility := .publicAccess, attributes := [], summary, locations := [⟨file, 1, 1, 1, 20⟩] }
  members := methods.map fun name =>
    { symbol :=
        { uniqueId := some ("M:K." ++ name), name, signature := "K." ++ name, kind := .method
          accessibility := .publicAccess, attributes := [], summary := none
          locations := [⟨file, 1, 9, 1, 18⟩] }
      isStatic := false, isAsync := false, isVirtual := false, isOverride := false, isAbstract := false
      returnType := none, parameters := [], comment := none, containingTypeId := some "T:K" }
  baseTypes := bases
  interfaces := []
  isPartial := false
  isAbstract := false
  isSealed := false
  isStatic := false
  filePath := file
  relativePath := file
  lineNumber := 1

def first : TypeSymbol := part "/a.cs" none ["B"] ["F", "F"]

def second : TypeSymbol := part "/b.cs" (some "second") ["B", "C", "C"] ["G", "F", "G"]

def third : TypeSymbol := part "/c.cs" (some "third") ["C"] ["H"]

/-- The second and the third part are merged first. -/
def whole : TypeSymbol := first.merge (second.merge third)

end Example

/-- A part with repetitions that was absorbed within a group adds nothing when it is merged again. -/
theorem merge_assoc_and_absorbed_repeated :
    Example.whole = (Example.first.merge Example.second).merge Example.third ∧
      Example.second.AbsorbedBy Example.whole ∧ Example.whole.merge Example.second = Example.whole ∧
      Example.whole.memberKeys = ["M:K.F", "M:K.F", "M:K.G", "M:K.H"] ∧
      Example.whole.baseTypes = ["B", "C"] ∧ Example.whole.symbol.summary = some "second" := by
  have habsorbed : Example.second.AbsorbedBy Example.whole := .right Example.first (.onto Example.third)
  obtain ⟨hassoc, hagain⟩ := merge_assoc_and_absorbed
  exact ⟨(hassoc _ _ _).symm, habsorbed, hagain _ _ habsorbed, by decide +kernel, by decide +kernel,
    by decide +kernel⟩

end TypeSymbol

end SolutionAtlas
