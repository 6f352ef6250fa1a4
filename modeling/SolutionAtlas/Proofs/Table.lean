-- SUMMARY: Laws of tables: order is kept, look-ups after changes, and tables with the same look-ups.
import Mathlib
import SolutionAtlas.Table

/-!
# Laws of tables

A table whose keys ascend is determined by its look-ups, and every operation keeps that order. Facts
about what a table holds are therefore stated through `get?`.
-/

namespace SolutionAtlas.Table

variable {β : Type}

/-- Keys ascend, so each stands once. -/
def Ascending (t : Table β) : Prop :=
  t.Pairwise fun a b => a.1 < b.1

/-! ## Look-ups -/

@[simp] theorem get?_nil (key : String) : get? key ([] : Table β) = none := rfl

theorem get?_cons (key k : String) (v : β) (t : Table β) :
    get? key ((k, v) :: t) = if k = key then some v else get? key t := rfl

@[simp] theorem isEmpty_insert (key : String) (value : β) (t : Table β) : (insert key value t).isEmpty = false := by
  cases t with
  | nil => rfl
  | cons e t =>
    rw [insert]
    split
    · rfl
    · split <;> rfl

@[simp] theorem get?_insert_self (key : String) (value : β) (t : Table β) :
    get? key (insert key value t) = some value := by
  induction t with
  | nil => simp [insert, get?_cons]
  | cons e t ih =>
    obtain ⟨k, v⟩ := e
    simp only [insert]
    split
    · simp [get?_cons]
    · split
      · simp [get?_cons]
      · rename_i hne
        rw [get?_cons, if_neg (fun h => hne h.symm), ih]

theorem get?_insert_of_ne {key other : String} (h : key ≠ other) (value : β) (t : Table β) :
    get? other (insert key value t) = get? other t := by
  induction t with
  | nil => simp [insert, get?_cons, h]
  | cons e t ih =>
    obtain ⟨k, v⟩ := e
    simp only [insert]
    split
    · rw [get?_cons, if_neg h]
    · split
      · rename_i heq
        subst heq
        rw [get?_cons, get?_cons, if_neg h, if_neg h]
      · rw [get?_cons, get?_cons, ih]

theorem get?_insert (key other : String) (value : β) (t : Table β) :
    get? other (insert key value t) = if key = other then some value else get? other t := by
  split
  · rename_i h
    rw [h, get?_insert_self]
  · rename_i h
    exact get?_insert_of_ne h value t

theorem mem_of_get? {key : String} {value : β} {t : Table β} (h : get? key t = some value) :
    (key, value) ∈ t := by
  induction t with
  | nil => simp at h
  | cons e t ih =>
    obtain ⟨k, v⟩ := e
    rw [get?_cons] at h
    split at h
    · rename_i hk
      cases h
      simp [hk]
    · exact List.mem_cons_of_mem _ (ih h)

theorem get?_filter {p : String × β → Bool} {key : String} (t : Table β)
    (h : ∀ v, p (key, v) = true) : get? key (List.filter p t) = get? key t := by
  induction t with
  | nil => rfl
  | cons e t ih =>
    obtain ⟨k, v⟩ := e
    by_cases hk : k = key
    · subst hk
      simp [h, get?_cons]
    · rw [get?_cons, if_neg hk, ← ih, List.filter_cons]
      split
      · rw [get?_cons, if_neg hk]
      · rfl

/-- The entries whose keys satisfy a condition. -/
theorem get?_filter_keys (q : String → Bool) (key : String) (t : Table β) :
    get? key (List.filter (fun e => q e.1) t) = if q key then get? key t else none := by
  split
  · rename_i hq
    exact get?_filter t fun _ => hq
  · rename_i hq
    cases hfound : get? key (List.filter (fun e => q e.1) t) with
    | none => rfl
    | some v => exact absurd (List.mem_filter.mp (mem_of_get? hfound)).2 hq

@[simp] theorem get?_erase_self (key : String) (t : Table β) : get? key (erase key t) = none := by
  induction t with
  | nil => rfl
  | cons e t ih =>
    obtain ⟨k, v⟩ := e
    by_cases hk : k = key
    · simpa [erase, hk] using ih
    · have hcons : erase key ((k, v) :: t) = (k, v) :: erase key t := by simp [erase, hk]
      rw [hcons, get?_cons, if_neg hk, ih]

theorem get?_erase_of_ne {key other : String} (h : key ≠ other) (t : Table β) :
    get? other (erase key t) = get? other t :=
  get?_filter t fun _ => by simpa using h.symm

theorem get?_erase (key other : String) (t : Table β) :
    get? other (erase key t) = if key = other then none else get? other t := by
  split
  · rename_i h
    rw [h, get?_erase_self]
  · rename_i h
    exact get?_erase_of_ne h t

theorem contains_iff {key : String} {t : Table β} :
    t.contains key = true ↔ ∃ v, get? key t = some v := by
  rw [contains, Option.isSome_iff_exists]

theorem mem_keys_iff {key : String} {t : Table β} :
    key ∈ t.keys ↔ ∃ v, get? key t = some v := by
  induction t with
  | nil => simp [keys]
  | cons e t ih =>
    obtain ⟨k, v⟩ := e
    rw [keys] at ih ⊢
    rw [List.map_cons, List.mem_cons, ih, get?_cons]
    by_cases hk : k = key
    · simp [hk]
    · simp [hk, Ne.symm hk]

/-! ## Order -/

namespace Ascending

@[simp] theorem nil : Ascending ([] : Table β) := List.Pairwise.nil

theorem filter {t : Table β} (h : Ascending t) (p : String × β → Bool) :
    Ascending (List.filter p t) :=
  List.Pairwise.filter p h

theorem erase {t : Table β} (h : Ascending t) (key : String) : Ascending (t.erase key) :=
  h.filter _

theorem mem_insert {key : String} {value : β} {t : Table β} {e : String × β}
    (h : e ∈ t.insert key value) : e = (key, value) ∨ e ∈ t := by
  induction t with
  | nil => simpa [Table.insert] using h
  | cons d t ih =>
    simp only [Table.insert] at h
    split at h
    · simpa using h
    · split at h
      · rcases List.mem_cons.mp h with rfl | h
        · exact .inl rfl
        · exact .inr (List.mem_cons_of_mem _ h)
      · rcases List.mem_cons.mp h with rfl | h
        · exact .inr List.mem_cons_self
        · exact (ih h).imp_right (List.mem_cons_of_mem _)

theorem insert {t : Table β} (h : Ascending t) (key : String) (value : β) :
    Ascending (t.insert key value) := by
  induction t with
  | nil => exact List.pairwise_singleton _ _
  | cons d t ih =>
    obtain ⟨k, v⟩ := d
    obtain ⟨hhead, htail⟩ := List.pairwise_cons.mp h
    simp only [Table.insert]
    split
    · rename_i hlt
      refine List.pairwise_cons.mpr ⟨fun e he => ?_, h⟩
      rcases List.mem_cons.mp he with rfl | he
      · exact hlt
      · exact lt_trans hlt (hhead e he)
    · split
      · rename_i heq
        subst heq
        exact List.pairwise_cons.mpr ⟨hhead, htail⟩
      · rename_i hnlt hne
        refine List.pairwise_cons.mpr ⟨fun e he => ?_, ih htail⟩
        rcases mem_insert he with rfl | he
        · exact lt_of_le_of_ne (not_lt.mp hnlt) (Ne.symm hne)
        · exact hhead e he

theorem keys_nodup {t : Table β} (h : Ascending t) : t.keys.Nodup :=
  (List.pairwise_map.mpr h).imp ne_of_lt

theorem get?_of_mem {key : String} {value : β} {t : Table β} (h : Ascending t)
    (hm : (key, value) ∈ t) : t.get? key = some value := by
  induction t with
  | nil => simp at hm
  | cons d t ih =>
    obtain ⟨k, v⟩ := d
    obtain ⟨hhead, htail⟩ := List.pairwise_cons.mp h
    rw [get?_cons]
    rcases List.mem_cons.mp hm with heq | hm
    · cases heq
      simp
    · rw [if_neg (ne_of_lt (hhead _ hm)), ih htail hm]

theorem mem_iff {key : String} {value : β} {t : Table β} (h : Ascending t) :
    (key, value) ∈ t ↔ t.get? key = some value :=
  ⟨h.get?_of_mem, mem_of_get?⟩

theorem mem_values_iff {value : β} {t : Table β} (h : Ascending t) :
    value ∈ t.values ↔ ∃ key, t.get? key = some value := by
  simp only [values, List.mem_map, Prod.exists, exists_eq_right, h.mem_iff]

/-- Tables in order are equal when their look-ups are. -/
theorem ext {t u : Table β} (ht : Ascending t) (hu : Ascending u)
    (h : ∀ key, t.get? key = u.get? key) : t = u := by
  have hmem : ∀ e, e ∈ t ↔ e ∈ u := by
    rintro ⟨key, value⟩
    rw [ht.mem_iff, hu.mem_iff, h]
  have hnodup : ∀ {s : Table β}, Ascending s → List.Nodup s := fun hs =>
    List.Pairwise.imp (fun hlt heq => absurd (congrArg Prod.fst heq) (ne_of_lt hlt)) hs
  exact ((List.perm_ext_iff_of_nodup (hnodup ht) (hnodup hu)).mpr hmem).eq_of_pairwise
    (fun _ _ _ _ hab hba => absurd hba (lt_asymm hab)) ht hu

end Ascending

/-! ## Filling -/

theorem length_insert_of_not_mem {k : String} {t : Table β} (h : k ∉ t.keys) (v : β) :
    (t.insert k v).length = t.length + 1 := by
  induction t with
  | nil => rfl
  | cons e t ih =>
    obtain ⟨k', v'⟩ := e
    obtain ⟨hne, hrest⟩ : k ≠ k' ∧ k ∉ keys t := not_or.mp (mt List.mem_cons.mpr h)
    rw [insert]
    split
    · rfl
    · rw [List.length_cons, ih hrest, List.length_cons]

section Fill

variable {α : Type} {key : α → String} {value? : α → Option β} {t : Table β} {xs : List α}

/-- Sets, one item after the other, the values that items have. -/
def fill (key : α → String) (value? : α → Option β) (t : Table β) (xs : List α) : Table β :=
  xs.foldl (fun t x =>
    match value? x with
    | some v => t.insert (key x) v
    | none => t) t

theorem Ascending.fill (h : Ascending t) (xs : List α) : Ascending (fill key value? t xs) := by
  unfold Table.fill
  induction xs generalizing t with
  | nil => exact h
  | cons x xs ih =>
    rw [List.foldl_cons]
    split
    · exact ih (h.insert _ _)
    · exact ih h

theorem fill_congr {other? : α → Option β} (h : ∀ x ∈ xs, value? x = other? x) :
    fill key value? t xs = fill key other? t xs := by
  unfold fill
  induction xs generalizing t with
  | nil => rfl
  | cons x xs ih =>
    rw [List.foldl_cons, List.foldl_cons, h x List.mem_cons_self]
    exact ih fun y hy => h y (List.mem_cons_of_mem _ hy)

/-- When no two items have one key, each look-up finds the value of an item, or what was there. -/
theorem get?_fill (hnodup : (xs.map key).Nodup) (k : String) (v : β) :
    (fill key value? t xs).get? k = some v ↔
      (∃ x ∈ xs, key x = k ∧ value? x = some v) ∨
        (t.get? k = some v ∧ ∀ x ∈ xs, key x = k → value? x = none) := by
  unfold fill
  induction xs generalizing t with
  | nil => simp
  | cons x xs ih =>
    rw [List.map_cons, List.nodup_cons] at hnodup
    obtain ⟨hhead, htail⟩ := hnodup
    have hother : ∀ y ∈ xs, key y = k → key x ≠ k :=
      fun y hy hyk hxk => hhead (List.mem_map.mpr ⟨y, hy, hyk.trans hxk.symm⟩)
    rw [List.foldl_cons, ih htail, List.exists_mem_cons_iff, List.forall_mem_cons]
    by_cases hk : key x = k
    · have hrest : ¬∃ y ∈ xs, key y = k ∧ value? y = some v := by
        rintro ⟨y, hy, hyk, -⟩
        exact hother y hy hyk hk
      have hnone : ∀ y ∈ xs, key y = k → value? y = none :=
        fun y hy hyk => absurd hk (hother y hy hyk)
      cases hx : value? x with
      | some u =>
        rw [hk, get?_insert_self]
        simpa [hrest] using fun _ => hnone
      | none => simp [hrest, hk]
    · cases hx : value? x with
      | some u =>
        rw [get?_insert_of_ne hk]
        simp [hk]
      | none => simp [hk]

/-- When no two items have one key, there are as many entries as items with a value. -/
theorem length_fill (hnodup : (xs.map key).Nodup)
    (hnew : ∀ x ∈ xs, key x ∉ t.keys) :
    (fill key value? t xs).length = t.length + xs.countP fun x => (value? x).isSome := by
  unfold fill
  induction xs generalizing t with
  | nil => rfl
  | cons x xs ih =>
    rw [List.map_cons, List.nodup_cons] at hnodup
    obtain ⟨hhead, htail⟩ := hnodup
    obtain ⟨hx, hxs⟩ := List.forall_mem_cons.mp hnew
    rw [List.foldl_cons, List.countP_cons]
    cases hvalue : value? x with
    | none => simpa using ih htail hxs
    | some v =>
      have hfresh : ∀ y ∈ xs, key y ∉ (t.insert (key x) v).keys := by
        intro y hy
        have hne : key x ≠ key y := fun heq => hhead (List.mem_map.mpr ⟨y, hy, heq.symm⟩)
        rw [mem_keys_iff, get?_insert_of_ne hne, ← mem_keys_iff]
        exact hxs y hy
      rw [ih htail hfresh, length_insert_of_not_mem hx]
      simp only [Option.isSome_some, if_true]
      omega

end Fill

end SolutionAtlas.Table
