-- SUMMARY: The first of each key, told by look-up, and loops that add what is not there yet.
import Mathlib
import SolutionAtlas.Distinct

/-!
# First of each key

`firstOfEach` keeps each key of a list once, by the element that a look-up of the key finds. It is what a loop
collects that adds an element only when its key is new. With the elements themselves as keys, lists of the
same elements are permuted into each other by it.
-/

namespace SolutionAtlas

/-- `kept` holds the elements of a list in their order, each key once, by the first element that has it. -/
inductive KeepsFirst {α β : Type} (key : α → β) : List α → List α → Prop where
  | nil : KeepsFirst key [] []
  | new {xs kept : List α} {x : α} (h : KeepsFirst key xs kept) (hnew : key x ∉ xs.map key) :
      KeepsFirst key (xs ++ [x]) (kept ++ [x])
  | again {xs kept : List α} {x : α} (h : KeepsFirst key xs kept) (hseen : key x ∈ xs.map key) :
      KeepsFirst key (xs ++ [x]) kept

section Keys

variable {α β : Type} [DecidableEq β] {key : α → β} {k : β} {x : α} {seen seen' : List β} {xs ys : List α}

/-! ## Keys -/

theorem mem_keys_firstUnseen :
    k ∈ (firstUnseen key seen xs).map key ↔ k ∈ xs.map key ∧ k ∉ seen := by
  fun_induction firstUnseen key seen xs with
  | case1 seen => simp
  | case2 seen y xs hseen ih =>
    rw [ih, List.map_cons, List.mem_cons]
    refine ⟨fun ⟨hk, hfree⟩ => ⟨.inr hk, hfree⟩, fun ⟨hk, hfree⟩ => ⟨hk.resolve_left ?_, hfree⟩⟩
    rintro rfl
    exact hfree hseen
  | case3 seen y xs hunseen ih =>
    rw [List.map_cons, List.map_cons, List.mem_cons, List.mem_cons, ih]
    by_cases hky : k = key y
    · subst hky
      simpa using hunseen
    · simp [hky]

theorem nodup_keys_firstUnseen (key : α → β) (seen : List β) (xs : List α) :
    ((firstUnseen key seen xs).map key).Nodup := by
  fun_induction firstUnseen key seen xs with
  | case1 seen => exact .nil
  | case2 seen y xs hseen ih => exact ih
  | case3 seen y xs hunseen ih =>
    rw [List.map_cons]
    refine List.nodup_cons.mpr ⟨fun hin => ?_, ih⟩
    exact (mem_keys_firstUnseen.mp hin).2 List.mem_cons_self

theorem mem_keys_firstOfEach : k ∈ (firstOfEach key xs).map key ↔ k ∈ xs.map key := by
  simp [firstOfEach, mem_keys_firstUnseen]

theorem nodup_keys_firstOfEach (key : α → β) (xs : List α) : ((firstOfEach key xs).map key).Nodup :=
  nodup_keys_firstUnseen key [] xs

/-- As many elements are kept as there are keys. -/
theorem length_firstOfEach (key : α → β) (xs : List α) :
    (firstOfEach key xs).length = (xs.map key).dedup.length := by
  rw [← List.length_map key]
  refine List.Perm.length_eq ?_
  rw [List.perm_ext_iff_of_nodup (nodup_keys_firstOfEach key xs) (List.nodup_dedup _)]
  intro k
  rw [mem_keys_firstOfEach, List.mem_dedup]

theorem mem_of_mem_firstUnseen (h : x ∈ firstUnseen key seen xs) : x ∈ xs := by
  fun_induction firstUnseen key seen xs with
  | case1 seen => cases h
  | case2 seen y xs hseen ih => exact List.mem_cons_of_mem y (ih h)
  | case3 seen y xs hunseen ih =>
    rcases List.mem_cons.mp h with rfl | h
    · exact List.mem_cons_self
    · exact List.mem_cons_of_mem y (ih h)

/-! ## Lists in pieces -/

/-- What has been seen counts as a set. -/
theorem firstUnseen_congr (h : ∀ k, k ∈ seen ↔ k ∈ seen') :
    firstUnseen key seen xs = firstUnseen key seen' xs := by
  induction xs generalizing seen seen' with
  | nil => rfl
  | cons x xs ih =>
    have hmore : ∀ k, k ∈ key x :: seen ↔ k ∈ key x :: seen' := by
      intro k
      rw [List.mem_cons, List.mem_cons, h]
    simp only [firstUnseen, h, ih h, ih hmore]

theorem firstUnseen_append (key : α → β) (seen : List β) (xs ys : List α) :
    firstUnseen key seen (xs ++ ys) =
      firstUnseen key seen xs ++ firstUnseen key (xs.map key ++ seen) ys := by
  induction xs generalizing seen with
  | nil => rfl
  | cons x xs ih =>
    rw [List.cons_append, firstUnseen, firstUnseen]
    split
    · rename_i hseen
      rw [ih]
      congr 1
      refine firstUnseen_congr fun k => ?_
      rw [List.map_cons, List.cons_append, List.mem_cons, iff_or_self]
      rintro rfl
      exact List.mem_append_right _ hseen
    · rw [ih, List.cons_append]
      congr 2
      refine firstUnseen_congr fun k => ?_
      simp only [List.map_cons, List.cons_append, List.mem_append, List.mem_cons]
      tauto

theorem firstUnseen_firstUnseen (key : α → β) (seen seen' : List β) (xs : List α) :
    firstUnseen key seen (firstUnseen key seen' xs) = firstUnseen key (seen ++ seen') xs := by
  induction xs generalizing seen seen' with
  | nil => rfl
  | cons x xs ih =>
    by_cases hseen' : key x ∈ seen'
    · rw [firstUnseen, if_pos hseen', firstUnseen, if_pos (List.mem_append_right _ hseen'), ih]
    · rw [firstUnseen, if_neg hseen', firstUnseen, firstUnseen, ih, ih]
      by_cases hseen : key x ∈ seen
      · rw [if_pos hseen, if_pos (List.mem_append_left _ hseen)]
        refine firstUnseen_congr fun k => ?_
        simp only [List.mem_append, List.mem_cons]
        refine ⟨fun h => h.elim .inl (Or.elim · (fun hk => .inl (hk ▸ hseen)) .inr), ?_⟩
        tauto
      · rw [if_neg hseen, if_neg (by simp [hseen, hseen'])]
        congr 1
        refine firstUnseen_congr fun k => ?_
        simp only [List.cons_append, List.mem_append, List.mem_cons]
        tauto

theorem firstOfEach_append (key : α → β) (xs ys : List α) :
    firstOfEach key (xs ++ ys) = firstOfEach key xs ++ firstUnseen key (xs.map key) ys := by
  rw [firstOfEach, firstUnseen_append, List.append_nil, firstOfEach]

theorem firstOfEach_concat (key : α → β) (xs : List α) (x : α) :
    firstOfEach key (xs ++ [x]) =
      if key x ∈ xs.map key then firstOfEach key xs else firstOfEach key xs ++ [x] := by
  rw [firstOfEach_append, firstUnseen]
  split
  · exact List.append_nil _
  · rfl

theorem keepsFirst_iff {kept : List α} : KeepsFirst key xs kept ↔ kept = firstOfEach key xs := by
  constructor
  · intro h
    induction h with
    | nil => rfl
    | new _ hnew ih => rw [firstOfEach_concat, if_neg hnew, ih]
    | again _ hseen ih => rw [firstOfEach_concat, if_pos hseen, ih]
  · rintro rfl
    induction xs using List.reverseRecOn with
    | nil => exact .nil
    | append_singleton xs x ih =>
      rw [firstOfEach_concat]
      split
      · exact .again ih ‹_›
      · exact .new ih ‹_›

/-- A loop that adds an element only when its key is new. -/
theorem foldl_eq_append_firstUnseen (key : α → β) {add : List α → α → List α}
    (hadd : ∀ acc x, add acc x = if key x ∈ acc.map key then acc else acc ++ [x]) (acc xs : List α) :
    xs.foldl add acc = acc ++ firstUnseen key (acc.map key) xs := by
  induction xs generalizing acc with
  | nil => exact (List.append_nil acc).symm
  | cons x xs ih =>
    rw [List.foldl_cons, hadd, firstUnseen]
    split
    · exact ih acc
    · rw [ih, List.append_assoc, List.singleton_append]
      congr 2
      refine firstUnseen_congr fun k => ?_
      simp [or_comm]

/-! ## Look-up -/

/-- The first with a key stays the first with it. -/
theorem find?_firstUnseen (h : k ∉ seen) :
    (firstUnseen key seen xs).find? (key · == k) = xs.find? (key · == k) := by
  fun_induction firstUnseen key seen xs with
  | case1 seen => rfl
  | case2 seen y xs hseen ih =>
    have hne : key y ≠ k := fun heq => h (heq ▸ hseen)
    rw [ih h, List.find?_cons_of_neg (by simpa using hne)]
  | case3 seen y xs hunseen ih =>
    rw [List.find?_cons, List.find?_cons]
    by_cases hyk : key y = k
    · simp [hyk]
    · simp only [beq_eq_false_iff_ne.mpr hyk]
      exact ih (by simpa [h] using Ne.symm hyk)

end Keys

/-! ## Elements as keys -/

section Elements

variable {α : Type} [DecidableEq α]

theorem mem_firstUnseen {x : α} {seen xs : List α} :
    x ∈ firstUnseen id seen xs ↔ x ∈ xs ∧ x ∉ seen := by
  have h := @mem_keys_firstUnseen α α _ id x seen xs
  simpa only [List.map_id] using h

theorem nodup_firstUnseen (seen xs : List α) : (firstUnseen id seen xs).Nodup := by
  simpa only [List.map_id] using nodup_keys_firstUnseen id seen xs

theorem firstOfEach_perm {xs ys : List α} :
    (firstOfEach id xs).Perm (firstOfEach id ys) ↔ ∀ x, x ∈ xs ↔ x ∈ ys := by
  rw [firstOfEach, firstOfEach, List.perm_ext_iff_of_nodup (nodup_firstUnseen _ _) (nodup_firstUnseen _ _)]
  simp [mem_firstUnseen]

end Elements

end SolutionAtlas
