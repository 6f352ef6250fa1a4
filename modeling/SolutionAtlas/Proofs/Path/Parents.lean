-- SUMMARY: The parent of a path, by its components.
import Mathlib
import SolutionAtlas.Proofs.Path.Shown

/-!
# Parents of paths

The components of a path can be read off its segments: the first one tells whether the path is absolute, and
the others stand for steps or for nothing. Dropping fillers at the end changes no component, and the parent of
a path has all of them but the last.
-/

namespace SolutionAtlas

namespace Path

variable {path : String}

/-- What the first segment of a path stands for, with the other segments behind it. -/
def startOf (first : String) (rest : List String) : List Component :=
  if first = "" ∧ rest ≠ [] then [.root]
  else if first = "." then [.current]
  else (Component.ofSegment? first).toList

theorem isAbsolute_iff_of_split {first : String} {rest : List String}
    (h : Text.split '/' path = first :: rest) : isAbsolute path = true ↔ first = "" ∧ rest ≠ [] := by
  constructor
  · intro habs
    obtain ⟨rest', hne, hsplit⟩ := split_of_isAbsolute habs
    obtain ⟨rfl, rfl⟩ := List.cons.inj (h.symm.trans hsplit)
    exact ⟨rfl, hne⟩
  · rintro ⟨rfl, hne⟩
    rw [isAbsolute, Text.startsWith_slash]
    rw [Text.split, Text.splitChars_eq_splitOnP] at h
    cases hpath : path.toList with
    | nil =>
      rw [hpath] at h
      exact absurd (List.cons.inj h).2.symm hne
    | cons c cs =>
      rw [hpath, List.splitOnP_cons_eq_if_modifyHead] at h
      by_cases hc : c = '/'
      · exact ⟨cs, by rw [hc]⟩
      · rw [if_neg (by simpa using hc)] at h
        obtain ⟨piece, pieces, hpieces⟩ := List.exists_cons_of_ne_nil (List.splitOnP_ne_nil (· == '/') cs)
        rw [hpieces] at h
        have hfirst := congrArg String.toList (List.cons.inj h).1
        rw [String.toList_ofList] at hfirst
        cases hfirst

theorem components_of_split {first : String} {rest : List String}
    (h : Text.split '/' path = first :: rest) :
    components path = startOf first rest ++ rest.filterMap Component.ofSegment? := by
  rw [components, h, startOf]
  simp only [isAbsolute_iff_of_split h, beq_iff_eq]

theorem components_ofSegments_cons {first : String} {rest : List String}
    (h : ∀ s ∈ first :: rest, '/' ∉ s.toList) :
    components (ofSegments (first :: rest)) = startOf first rest ++ rest.filterMap Component.ofSegment? :=
  components_of_split (split_ofSegments h (List.cons_ne_nil first rest))

theorem startOf_congr (first : String) {rest rest' : List String} (h : rest = [] ↔ rest' = []) :
    startOf first rest = startOf first rest' := by
  simp only [startOf, ne_eq, h]

theorem trimEnd_of_split {first : String} {rest : List String} (h : Text.split '/' path = first :: rest) :
    trimEnd path = if dropFillersAtEnd rest = [] then if isAbsolute path then "/" else first
      else ofSegments (first :: dropFillersAtEnd rest) := by
  rw [trimEnd, h]
  dsimp only
  cases dropFillersAtEnd rest <;> simp

/-- Fillers at the end stand for nothing. -/
theorem components_trimEnd (path : String) : components (trimEnd path) = components path := by
  obtain ⟨first, rest, hsplit⟩ := List.exists_cons_of_ne_nil (Text.split_ne_nil path)
  have hslash : ∀ s ∈ first :: rest, '/' ∉ s.toList := fun s hs => Text.no_slash_of_mem_split (hsplit ▸ hs)
  have habs := isAbsolute_iff_of_split hsplit
  rw [components_of_split hsplit, ← filterMap_dropFillersAtEnd, trimEnd_of_split hsplit]
  split
  · rename_i hkept
    rw [hkept, List.filterMap_nil, List.append_nil]
    by_cases h : isAbsolute path = true
    · rw [if_pos h, startOf, if_pos (habs.mp h)]
      decide
    · rw [if_neg h, components_of_split (Text.split_of_not_mem (hslash first List.mem_cons_self)), startOf,
        startOf, if_neg (mt habs.mpr h), if_neg (by simp)]
      exact List.append_nil _
  · rename_i hkept
    have hsub : dropFillersAtEnd rest ⊆ rest := (isPrefix_dropFillersAtEnd rest).subset
    have hne : rest ≠ [] := fun hnil => hkept (List.eq_nil_of_subset_nil (hnil ▸ hsub))
    rw [components_ofSegments_cons fun t ht => hslash t (List.cons_subset_cons first hsub ht),
      startOf_congr first (iff_of_false hkept hne)]

theorem not_isFiller_of_dropFillersAtEnd {segments front : List String} {s : String}
    (h : dropFillersAtEnd segments = front ++ [s]) : isFiller s = false := by
  induction segments using List.reverseRecOn with
  | nil => simp [dropFillersAtEnd] at h
  | append_singleton segments t ih =>
    rw [dropFillersAtEnd_concat] at h
    split at h
    · exact ih h
    · rename_i hfiller
      obtain ⟨-, hlast⟩ := List.append_inj' h rfl
      rw [← List.singleton_inj.mp hlast]
      exact Bool.eq_false_iff.mpr hfiller

/-- The parent of a path that has more segments than the first. -/
theorem parent?_of_split {first s : String} {rest front : List String} (hsplit : Text.split '/' path = first :: rest)
    (hkept : dropFillersAtEnd rest = front ++ [s]) :
    (components path).dropLast = startOf first rest ++ front.filterMap Component.ofSegment? ∧
      parent? path = some (if front = [] then if isAbsolute path then "/" else first
        else trimEnd (ofSegments (first :: front))) := by
  have hslash : ∀ t ∈ first :: (front ++ [s]), '/' ∉ t.toList := by
    intro t ht
    rw [← hkept] at ht
    have hsub := List.cons_subset_cons first (isPrefix_dropFillersAtEnd rest).subset
    exact Text.no_slash_of_mem_split (hsplit ▸ hsub ht)
  obtain ⟨c, hc⟩ : ∃ c, Component.ofSegment? s = some c := by
    rcases ofSegment?_cases s with ⟨hfiller, -⟩ | ⟨-, -, h⟩ | ⟨-, -, h⟩
    · rw [not_isFiller_of_dropFillersAtEnd hkept] at hfiller
      cases hfiller
    · exact ⟨_, h⟩
    · exact ⟨_, h⟩
  have hcomponents : components path = (startOf first rest ++ front.filterMap Component.ofSegment?) ++ [c] := by
    rw [components_of_split hsplit, ← filterMap_dropFillersAtEnd, hkept, List.filterMap_append, List.filterMap_cons,
      hc, List.append_assoc]
    rfl
  have htrim : Text.split '/' (trimEnd path) = first :: (front ++ [s]) := by
    rw [trimEnd_of_split hsplit, hkept, if_neg (by simp), split_ofSegments hslash (List.cons_ne_nil _ _)]
  rw [parent?, hcomponents, List.getLast?_concat, htrim]
  simp only [List.dropLast_concat]
  refine ⟨trivial, ?_⟩
  cases isStep_of_ofSegment? (hslash s (by simp)) hc <;> cases front <;> simp

/-- The parent of a path has its components but for the last one. Nothing lies above a root. -/
theorem components_parent? (path : String) :
    ((parent? path).map components).getD [] = (components path).dropLast := by
  obtain ⟨first, rest, hsplit⟩ := List.exists_cons_of_ne_nil (Text.split_ne_nil path)
  have habs := isAbsolute_iff_of_split hsplit
  have hslash : ∀ s ∈ first :: rest, '/' ∉ s.toList := fun s hs => Text.no_slash_of_mem_split (hsplit ▸ hs)
  have hfirst : Text.split '/' first = [first] := Text.split_of_not_mem (hslash first List.mem_cons_self)
  rcases List.eq_nil_or_concat (dropFillersAtEnd rest) with hkept | ⟨front, s, hkept⟩
  · -- Nothing stands behind the first segment.
    have hcomponents : components path = startOf first rest := by
      rw [components_of_split hsplit, ← filterMap_dropFillersAtEnd, hkept]
      exact List.append_nil _
    rw [parent?, hcomponents]
    by_cases h : isAbsolute path = true
    · rw [startOf, if_pos (habs.mp h)]
      rfl
    · rw [startOf, if_neg (mt habs.mpr h), trimEnd_of_split hsplit, if_pos hkept, if_neg h, hfirst]
      by_cases hcurrent : first = "."
      · rw [if_pos hcurrent]
        rfl
      · rw [if_neg hcurrent]
        cases Component.ofSegment? first with
        | none => rfl
        | some c => cases c <;> rfl
  · rw [List.concat_eq_append] at hkept
    obtain ⟨hcomponents, hparent⟩ := parent?_of_split hsplit hkept
    have hrest : rest ≠ [] := by
      rintro rfl
      simp [dropFillersAtEnd] at hkept
    rw [hcomponents, hparent, Option.map_some, Option.getD_some]
    cases front with
    | nil =>
      rw [if_pos rfl, List.filterMap_nil, List.append_nil]
      by_cases h : isAbsolute path = true
      · rw [if_pos h, startOf, if_pos (habs.mp h)]
        decide
      · rw [if_neg h, components_of_split hfirst, startOf, startOf, if_neg (mt habs.mpr h), if_neg (by simp)]
        exact List.append_nil _
    | cons t front =>
      have hfront : ∀ u ∈ first :: t :: front, '/' ∉ u.toList := by
        intro u hu
        have hsub := List.cons_subset_cons first (isPrefix_dropFillersAtEnd rest).subset
        rw [hkept] at hsub
        exact hslash u (hsub (List.mem_append_left [s] hu))
      rw [if_neg (List.cons_ne_nil t front), components_trimEnd, components_ofSegments_cons hfront,
        startOf_congr first (iff_of_false (List.cons_ne_nil t front) hrest)]

end Path

end SolutionAtlas
