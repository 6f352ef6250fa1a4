-- SUMMARY: What is shown of a path leads back to it, once it is read from the root and normalized.
import Mathlib
import SolutionAtlas.Proofs.Path.Steps

/-!
# The way back from a shown path

A path is shown by the steps that lead to it from the root. Read from the root, these stand behind the
components of the root. The steps up take off again what the root has of its own, so that normalizing leaves
what normalizing the path leaves. A path that is its own normal form is led back to, and no two of them are
shown the same.
-/

namespace SolutionAtlas

namespace Path

variable {root path : String}

/-- An absolute path that is still the same path when it is normalized, however it is spelled. -/
structure InNormalForm (path : String) : Prop where
  absolute : isAbsolute path = true
  kept : components (normalize path) = components path

instance (path : String) : Decidable (InNormalForm path) :=
  decidable_of_iff (isAbsolute path = true ∧ components (normalize path) = components path)
    ⟨fun ⟨habs, hkept⟩ => ⟨habs, hkept⟩, fun h => ⟨h.absolute, h.kept⟩⟩

theorem InNormalForm.straight (h : InNormalForm path) : Straight path := by
  obtain ⟨names, hnames, hcomponents⟩ := straight_normalize h.absolute
  rw [h.kept] at hcomponents
  exact ⟨names, hnames, hcomponents⟩

/-! ## Up again -/

theorem foldl_normalizeStep_names (names : Place) (acc : List Component) :
    (names.map Component.name).foldl normalizeStep acc = (names.map Component.name).reverse ++ acc := by
  induction names generalizing acc with
  | nil => rfl
  | cons s names ih => simp [normalizeStep, ih]

/-- Where a path goes straight down, all of its components are held. -/
theorem Straight.foldl_take (h : Straight path) (n : Nat) :
    ((components path).take n).foldl normalizeStep [] = ((components path).take n).reverse := by
  obtain ⟨names, -, hdown | hup⟩ := h
  · rw [hdown]
    cases n with
    | zero => rfl
    | succ n =>
      rw [List.take_succ_cons, ← List.map_take, List.foldl_cons, foldl_normalizeStep_names, List.reverse_cons]
      rfl
  · rw [hup]
    match n with
    | 0 => rfl
    | 1 => rfl
    | n + 2 =>
      rw [List.take_succ_cons, List.take_succ_cons, ← List.map_take, List.foldl_cons, List.foldl_cons,
        foldl_normalizeStep_names, List.reverse_cons, List.reverse_cons, List.append_assoc]
      rfl

theorem Straight.root_not_mem (h : Straight path) {n : Nat} (hn : 0 < n) :
    .root ∉ (components path).drop n := by
  obtain ⟨n, rfl⟩ := Nat.exists_eq_add_one_of_ne_zero hn.ne'
  have hnames (names : Place) : Component.root ∉ names.map Component.name := by simp
  obtain ⟨names, -, hdown | hup⟩ := h
  · rw [hdown, List.drop_succ_cons]
    exact fun hmem => hnames names (List.mem_of_mem_drop hmem)
  · rw [hup, List.drop_succ_cons]
    intro hmem
    rcases List.mem_cons.mp (List.mem_of_mem_drop hmem) with heq | hmem
    · cases heq
    · exact hnames names hmem

/-- As many steps up as components are held above others take these components off again. -/
theorem foldl_normalizeStep_up {held : List Component} (h : .root ∉ held) (acc : List Component) :
    (List.replicate held.length .parent).foldl normalizeStep (held ++ acc) = acc := by
  induction held with
  | nil => rfl
  | cons c held ih =>
    rw [List.mem_cons, not_or] at h
    have hup : normalizeStep (c :: held ++ acc) .parent = held ++ acc := by
      cases c with
      | root => exact absurd rfl h.1
      | current => rfl
      | parent => rfl
      | name s => rfl
    rw [List.length_cons, List.replicate_succ, List.foldl_cons, hup, ih h.2]

/-- The steps from a straight path to another end with what is held of the other. -/
theorem foldl_normalizeStep_stepsTo (hroot : Straight root) {target : List Component}
    (hshared : 0 < commonLength target (components root)) :
    (components root ++ stepsTo (components root) target).foldl normalizeStep [] =
      target.foldl normalizeStep [] := by
  generalize hn : commonLength target (components root) = n at hshared
  have hown : (components root).reverse =
      ((components root).drop n).reverse ++ ((components root).take n).reverse := by
    rw [← List.reverse_append, List.take_append_drop]
  have hheld : (components root).foldl normalizeStep [] =
      ((components root).drop n).reverse ++ ((components root).take n).reverse := by
    have hall := hroot.foldl_take (components root).length
    rwa [List.take_length, hown] at hall
  have hfree : .root ∉ ((components root).drop n).reverse := by
    rw [List.mem_reverse]
    exact hroot.root_not_mem hshared
  have hcount : (components root).length - n = ((components root).drop n).reverse.length := by
    rw [List.length_reverse, List.length_drop]
  calc (components root ++ stepsTo (components root) target).foldl normalizeStep []
    _ = (target.drop n).foldl normalizeStep ((components root).take n).reverse := by
      rw [stepsTo, hn, List.foldl_append, List.foldl_append, hheld, hcount, foldl_normalizeStep_up hfree]
    _ = (target.drop n).foldl normalizeStep ((target.take n).foldl normalizeStep []) := by
      rw [← hroot.foldl_take n, ← hn, take_commonLength]
    _ = target.foldl normalizeStep [] := by
      rw [← List.foldl_append, List.take_append_drop]

/-! ## What is read from the root -/

theorem components_of_relative (h : isAbsolute path = false) (hcurrent : .current ∉ components path) :
    components path = (Text.split '/' path).filterMap Component.ofSegment? := by
  obtain ⟨first, rest, hsplit⟩ := List.exists_cons_of_ne_nil (Text.split_ne_nil path)
  rw [components, hsplit] at hcurrent ⊢
  simp only [h, Bool.false_eq_true, if_false] at hcurrent ⊢
  by_cases hfirst : (first == ".") = true
  · simp [hfirst] at hcurrent
  · rw [if_neg hfirst, List.filterMap_cons]
    cases Component.ofSegment? first <;> rfl

theorem dropCurrent_eq_self (h : .current ∉ components path) :
    String.ofList (dropCurrent path.toList) = path := by
  generalize hshown : path.toList = shown
  unfold dropCurrent
  split
  · rename_i rest
    exfalso
    have hdot : path = "." ++ "/" ++ String.ofList rest := String.toList_inj.mp (by simp [hshown])
    have hrelative : isAbsolute path = false := by
      rw [Bool.eq_false_iff]
      intro habs
      obtain ⟨rest', hrest'⟩ := Text.startsWith_slash.mp habs
      simp [hshown] at hrest'
    have hfirst : Text.split '/' "." = ["."] := by decide
    apply h
    rw [components, hdot, Text.split_append, hfirst, ← hdot, hrelative]
    exact List.mem_append_left _ (List.mem_singleton_self _)
  · rw [← hshown, String.ofList_toList]

/-- What is shown of a path and has no blanks at its ends is read as it stands, behind the root. -/
theorem components_resolveUnder (hroot : isAbsolute root = true) (hpath : isAbsolute path = true)
    (hback : '\\' ∉ path.toList) (htrim : Text.trim (relativeTo root path) = relativeTo root path) :
    components (resolveUnder root (relativeTo root path)) =
      components root ++ stepsTo (components root) (components path) := by
  have hsteps := components_relativeTo hroot hpath hback
  have hrelative := not_isAbsolute_relativeTo hroot hback
  have hplain := Text.forwardSlashes_eq_self (backslash_not_mem_relativeTo root path)
  have hcurrent : .current ∉ components (relativeTo root path) := by
    rw [hsteps]
    intro hmem
    cases isStep_of_mem_stepsTo hroot hpath hmem
  rw [resolveUnder, htrim, hrelative]
  simp only [Bool.false_eq_true, if_false]
  rw [hplain, dropCurrent_eq_self hcurrent, components_join (ne_empty_of_isAbsolute hroot) hrelative,
    ← components_of_relative hrelative hcurrent, hsteps]

/-! ## There and back -/

/-- The root may be left on the way: what the steps lead through is what normalizing holds of the path. -/
theorem foldl_normalizeStep_shown (hroot : InNormalForm root) (hpath : isAbsolute path = true) :
    (components root ++ stepsTo (components root) (components path)).foldl normalizeStep [] =
      (components path).foldl normalizeStep [] := by
  refine foldl_normalizeStep_stepsTo hroot.straight ?_
  rw [components_eq_filterMap hroot.absolute, components_eq_filterMap hpath, commonLength, if_pos rfl]
  exact Nat.succ_pos _

/-- What a normal root shows of a normal path is not absolute. Unless blanks at its ends are lost, it leads back
to the path: read from the root and normalized it is the path again. And it is shown of no other normal path. -/
theorem relativeTo_leads_back (hroot : InNormalForm root) (hpath : InNormalForm path)
    (hplain : '\\' ∉ path.toList) :
    isAbsolute (relativeTo root path) = false ∧
      (Text.trim (relativeTo root path) = relativeTo root path →
        normalize (resolveUnder root (relativeTo root path)) = normalize path ∧
          components (normalize (resolveUnder root (relativeTo root path))) = components path) ∧
      ∀ path', InNormalForm path' → '\\' ∉ path'.toList → relativeTo root path' = relativeTo root path →
        components path' = components path := by
  refine ⟨not_isAbsolute_relativeTo hroot.absolute hplain, ?_, ?_⟩
  · intro htrim
    have hback : normalize (resolveUnder root (relativeTo root path)) = normalize path := by
      rw [normalize, normalize, components_resolveUnder hroot.absolute hpath.absolute hplain htrim,
        foldl_normalizeStep_shown hroot hpath.absolute]
    exact ⟨hback, by rw [hback, hpath.kept]⟩
  · intro path' hpath' hplain' hshown
    have hsteps : stepsTo (components root) (components path') = stepsTo (components root) (components path) := by
      rw [← components_relativeTo hroot.absolute hpath'.absolute hplain',
        ← components_relativeTo hroot.absolute hpath.absolute hplain, hshown]
    have hnormal : normalize path' = normalize path := by
      rw [normalize, normalize, ← foldl_normalizeStep_shown hroot hpath'.absolute, hsteps,
        foldl_normalizeStep_shown hroot hpath.absolute]
    rw [← hpath'.kept, hnormal, hpath.kept]

/-- A path outside of the root, three levels up from it. -/
theorem relativeTo_leads_back_outside :
    InNormalForm "/ws/App/src" ∧ InNormalForm "/Lib/U.cs" ∧
      relativeTo "/ws/App/src" "/Lib/U.cs" = "../../../Lib/U.cs" ∧
      normalize (resolveUnder "/ws/App/src" "../../../Lib/U.cs") = "/Lib/U.cs" ∧
      relativeTo "/ws/App/src" "/ws/Lib/U.cs" ≠ "../../../Lib/U.cs" := by
  have hroot : InNormalForm "/ws/App/src" := by decide +kernel
  have hpath : InNormalForm "/Lib/U.cs" := by decide +kernel
  have hpath' : InNormalForm "/ws/Lib/U.cs" := by decide +kernel
  have hshown : relativeTo "/ws/App/src" "/Lib/U.cs" = "../../../Lib/U.cs" := by decide +kernel
  obtain ⟨-, hback, honly⟩ := relativeTo_leads_back hroot hpath (by decide)
  rw [hshown] at hback honly
  have hnormal : normalize "/Lib/U.cs" = "/Lib/U.cs" := by decide +kernel
  refine ⟨hroot, hpath, hshown, ?_, fun hsame => ?_⟩
  · rw [(hback (by decide +kernel)).1, hnormal]
  · exact absurd (honly _ hpath' (by decide) hsame) (by decide +kernel)

end Path

end SolutionAtlas
