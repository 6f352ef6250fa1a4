-- SUMMARY: Tables of places: what is found by a key is where the key stands.
import Mathlib
import SolutionAtlas.Proofs.Table

/-!
# Tables of places

Items that are put together one by one are kept with a table of their places, so that none is searched for.
Such a table is right as long as a key is found at a place exactly when it stands there. Then no key stands
twice, and to change the item of a key is to change the one item at its place.
-/

namespace SolutionAtlas

namespace Table

variable {ι : Type} {t : Table ι} {keyAt keyAt' : ι → Option String} {key : String} {i j : ι}

/-- A key is found at a place exactly when it stands there. -/
def Locates (t : Table ι) (keyAt : ι → Option String) : Prop :=
  ∀ key i, t.get? key = some i ↔ keyAt i = some key

namespace Locates

theorem get?_eq_none_iff (h : t.Locates keyAt) : t.get? key = none ↔ ∀ i, keyAt i ≠ some key := by
  simp only [Option.eq_none_iff_forall_ne_some, Ne, h key]

/-- No key stands at two places. -/
theorem inj (h : t.Locates keyAt) (hi : keyAt i = some key) (hj : keyAt j = some key) : i = j :=
  Option.some.inj (((h key i).mpr hi).symm.trans ((h key j).mpr hj))

theorem congr (h : t.Locates keyAt) (hsame : ∀ i, keyAt' i = keyAt i) : t.Locates keyAt' := by
  intro key i
  rw [h key, hsame]

/-- A new key comes to stand at a place that was free. -/
theorem insert (h : t.Locates keyAt) (hnew : t.get? key = none) (hfree : keyAt i = none)
    (hplace : keyAt' i = some key) (hother : ∀ j, j ≠ i → keyAt' j = keyAt j) :
    (t.insert key i).Locates keyAt' := by
  intro other j
  rw [get?_insert]
  by_cases hj : j = i
  · subst hj
    rw [hplace, Option.some.injEq]
    split
    · rename_i hkey
      exact iff_of_true rfl hkey
    · rename_i hkey
      rw [h other, hfree]
      exact iff_of_false (by simp) hkey
  · rw [hother j hj]
    split
    · rename_i hkey
      subst hkey
      exact iff_of_false (fun heq => hj (Option.some.inj heq).symm) (h.get?_eq_none_iff.mp hnew j)
    · exact h other j

end Locates

/-! ## Places in lists -/

section Lists

variable {α : Type} {f : α → String} {xs : List α} {t : Table Nat}

/-- The key of the item at a place of a list. -/
def keyIn (f : α → String) (xs : List α) (i : Nat) : Option String :=
  (xs[i]?).map f

theorem keyIn_eq_some {i : Nat} : keyIn f xs i = some key ↔ ∃ x, xs[i]? = some x ∧ f x = key :=
  Option.map_eq_some_iff

theorem locates_nil : Locates [] (keyIn f []) := by
  intro key i
  simp [keyIn]

theorem keyIn_concat_self (f : α → String) (xs : List α) (x : α) :
    keyIn f (xs ++ [x]) xs.length = some (f x) := by
  rw [keyIn, List.getElem?_concat_length]
  rfl

theorem keyIn_concat_of_ne {x : α} {i : Nat} (h : i ≠ xs.length) : keyIn f (xs ++ [x]) i = keyIn f xs i := by
  rcases lt_or_gt_of_ne h with hbefore | hbehind
  · rw [keyIn, keyIn, List.getElem?_append_left hbefore]
  · have hlast : (xs ++ [x]).length ≤ i := by simpa using hbehind
    rw [keyIn, keyIn, List.getElem?_eq_none hlast, List.getElem?_eq_none hbehind.le]

theorem keyIn_modify {g : α → α} (hg : ∀ x, f (g x) = f x) (i j : Nat) :
    keyIn f (xs.modify i g) j = keyIn f xs j := by
  rw [keyIn, keyIn, List.getElem?_modify]
  cases xs[j]? with
  | none => rfl
  | some x =>
    rw [Option.map_eq_map, Option.map_some, Option.map_some, Option.map_some]
    split
    · rw [hg]
    · rfl

/-- An item with a new key is put at the end. -/
theorem Locates.concat (h : t.Locates (keyIn f xs)) {x : α} (hnew : t.get? (f x) = none) :
    (t.insert (f x) xs.length).Locates (keyIn f (xs ++ [x])) :=
  h.insert hnew (by simp [keyIn]) (keyIn_concat_self f xs x) fun _ hi => keyIn_concat_of_ne hi

/-- An item is changed, and keeps its key. -/
theorem Locates.modify (h : t.Locates (keyIn f xs)) {g : α → α} (hg : ∀ x, f (g x) = f x) (i : Nat) :
    t.Locates (keyIn f (xs.modify i g)) :=
  h.congr (keyIn_modify hg i)

/-- An item is found by its key when the list has the key, and only then. -/
theorem Locates.get?_eq_none_iff_not_mem (h : t.Locates (keyIn f xs)) :
    t.get? key = none ↔ key ∉ xs.map f := by
  simp only [h.get?_eq_none_iff, Ne, keyIn_eq_some, not_exists, not_and, List.mem_map]
  constructor
  · intro hnone x hx
    obtain ⟨i, hi⟩ := List.mem_iff_getElem?.mp hx
    exact hnone i x hi
  · exact fun hnone i x hi => hnone x (List.mem_of_getElem? hi)

end Lists

end Table

/-- To change every item that satisfies a condition is to change the one at a place, when it is the only one. -/
theorem map_eq_modify {α : Type} {f g : α → α} {i : Nat} {xs : List α}
    (h : ∀ j x, xs[j]? = some x → f x = if i = j then g x else x) : xs.map f = xs.modify i g := by
  refine List.ext_getElem? fun j => ?_
  rw [List.getElem?_map, List.getElem?_modify]
  cases hx : xs[j]? with
  | none => rfl
  | some x =>
    rw [Option.map_some, h j x hx, Option.map_eq_map, Option.map_some]

end SolutionAtlas
