-- SUMMARY: Paths as seen from an absolute root: none is absolute, and seen again each is the same.
import Mathlib
import SolutionAtlas.Proofs.Path.Joined

/-!
# Paths seen from an absolute root

A path below the root is shown by the names that lead down to it, a path elsewhere with steps up in
front, and a relative path as it is. So what is shown is never absolute, and to see it from the root
again changes nothing. Backslashes are kept out: shown as slashes they could make a path absolute.
-/

namespace SolutionAtlas

namespace Path

variable {root path : String}

/-! ## Relative paths -/

theorem root_not_mem_components (h : isAbsolute path = false) : Component.root ∉ components path := by
  obtain ⟨steps, hsteps, hcomponents⟩ := components_of_not_isAbsolute h
  have hroot : Component.root ∉ steps := fun hmem => by cases hsteps .root hmem
  rcases hcomponents with hcomponents | hcomponents <;> simpa [hcomponents] using hroot

/-- A relative path is shown as it is. -/
theorem relativeTo_of_not_isAbsolute (hroot : isAbsolute root = true) (hpath : isAbsolute path = false)
    (hslash : '\\' ∉ path.toList) : relativeTo root path = path := by
  have hnone : strip? root path = none := by
    obtain ⟨steps, -, hcomponents⟩ := components_of_isAbsolute hroot
    refine strip?_eq_none fun hlead => root_not_mem_components hpath (hlead.subset ?_)
    rw [hcomponents]
    exact List.mem_cons_self
  rw [relativeTo]
  split
  · rename_i hempty
    exact (String.isEmpty_iff.mp hempty).symm
  · simp only [hnone, hpath, Bool.false_eq_true, if_false]
    exact Text.forwardSlashes_eq_self hslash

/-! ## Paths below the root -/

theorem isPrefix_dropFillersAtEnd (segments : List String) : dropFillersAtEnd segments <+: segments := by
  apply List.reverse_suffix.mp
  simpa [dropFillersAtEnd] using List.dropWhile_suffix isFiller

theorem dropComponents_suffix (n : Nat) (segments : List String) :
    dropComponents n segments <:+ segments := by
  fun_induction dropComponents n segments with
  | case1 segments => exact List.dropWhile_suffix _
  | case2 n => exact List.suffix_rfl
  | case3 n s segments hfiller ih => exact ih.trans (List.suffix_cons s segments)
  | case4 n s segments hname ih => exact ih.trans (List.suffix_cons s segments)

/-- What is left behind components begins with no filler. -/
theorem isFiller_of_dropComponents_eq_cons {n : Nat} {segments rest : List String} {s : String}
    (h : dropComponents n segments = s :: rest) : isFiller s = false := by
  fun_induction dropComponents n segments with
  | case1 segments =>
    have hhead := List.head?_dropWhile_not isFiller segments
    rwa [h] at hhead
  | case2 n => cases h
  | case3 n s segments hfiller ih => exact ih h
  | case4 n s segments hname ih => exact ih h

/-- A text that begins with a name without a backslash is not absolute, whichever way its slashes
lean. -/
theorem not_isAbsolute_forwardSlashes_ofSegments {s : String} {rest : List String}
    (hfiller : isFiller s = false) (hslash : '/' ∉ s.toList) (hback : '\\' ∉ s.toList) :
    isAbsolute (Text.forwardSlashes (ofSegments (s :: rest))) = false := by
  have hne : s.toList ≠ [] := by
    intro hnil
    obtain rfl : s = "" := String.toList_eq_nil_iff.mp hnil
    exact absurd hfiller (by decide)
  obtain ⟨c, cs, hcs⟩ := List.exists_cons_of_ne_nil hne
  obtain ⟨tail, htail⟩ : ∃ tail, (ofSegments (s :: rest)).toList = c :: tail := by
    cases rest with
    | nil => exact ⟨cs, by rw [ofSegments, String.intercalate_singleton, hcs]⟩
    | cons t rest =>
      rw [ofSegments, String.intercalate_cons_cons, String.toList_append, String.toList_append, hcs]
      exact ⟨_, rfl⟩
  rw [hcs, List.mem_cons, not_or] at hslash hback
  rw [Bool.eq_false_iff]
  intro habs
  obtain ⟨tail', htail'⟩ := Text.startsWith_slash.mp habs
  rw [Text.toList_forwardSlashes, htail, List.map_cons,
    if_neg (by simpa using Ne.symm hback.1)] at htail'
  exact hslash.1 (List.cons.inj htail').1.symm

theorem filterMap_dropFillersAtEnd (segments : List String) :
    (dropFillersAtEnd segments).filterMap Component.ofSegment? =
      segments.filterMap Component.ofSegment? := by
  obtain ⟨fillers, hfillers, happend⟩ := dropFillersAtEnd_append segments
  conv_rhs => rw [← happend, List.filterMap_append, filterMap_fillers hfillers, List.append_nil]

theorem filterMap_dropComponents (n : Nat) (segments : List String) :
    (dropComponents n segments).filterMap Component.ofSegment? =
      (segments.filterMap Component.ofSegment?).drop n := by
  fun_induction dropComponents n segments with
  | case1 segments =>
    have hfillers : (segments.takeWhile isFiller).filterMap Component.ofSegment? = [] :=
      filterMap_fillers fun s hs => List.mem_takeWhile_imp hs
    conv_rhs => rw [← List.takeWhile_append_dropWhile (p := isFiller) (l := segments)]
    rw [List.filterMap_append, hfillers, List.nil_append, List.drop_zero]
  | case2 n => exact List.drop_nil.symm
  | case3 n s segments hfiller ih => rw [ih, List.filterMap_cons, ofSegment?_of_isFiller hfiller]
  | case4 n s segments hname ih =>
    rcases ofSegment?_cases s with ⟨hfiller, -⟩ | ⟨-, -, hs⟩ | ⟨-, -, hs⟩
    · exact absurd hfiller hname
    · rw [ih, List.filterMap_cons, hs, List.drop_succ_cons]
    · rw [ih, List.filterMap_cons, hs, List.drop_succ_cons]

theorem backslash_not_mem_of_mem_split {s : String} (hback : '\\' ∉ path.toList)
    (h : s ∈ Text.split '/' path) : '\\' ∉ s.toList := by
  obtain ⟨piece, hpiece, rfl⟩ := List.mem_map.mp h
  rw [String.toList_ofList]
  intro hmem
  exact hback (Text.subset_of_mem_splitChars hpiece hmem)

/-- What is left of a path below an absolute root are segments of the path: the ones that stand for its
components below the root, from the first of these on. -/
theorem exists_of_strip?_eq_some {rest : String} (hroot : isAbsolute root = true)
    (h : strip? root path = some rest) :
    ∃ kept, rest = ofSegments kept ∧ (∀ s ∈ kept, s ∈ Text.split '/' path) ∧
      (∀ s tail, kept = s :: tail → isFiller s = false) ∧
      kept.filterMap Component.ofSegment? =
        ((Text.split '/' path).filterMap Component.ofSegment?).drop ((components root).length - 1) := by
  obtain ⟨steps, -, hcomponents⟩ := components_of_isAbsolute hroot
  rw [strip?, hcomponents] at h
  simp only [List.isEmpty_cons, Bool.false_eq_true, if_false] at h
  split at h
  · cases h
  · obtain rfl := Option.some.inj h
    refine ⟨_, rfl, fun s hs => ?_, fun s tail hs => isFiller_of_dropComponents_eq_cons hs, ?_⟩
    · exact (isPrefix_dropFillersAtEnd _).subset ((dropComponents_suffix _ _).subset hs)
    · rw [filterMap_dropComponents, filterMap_dropFillersAtEnd, hcomponents]
      rfl

theorem not_isAbsolute_strip? {rest : String} (hroot : isAbsolute root = true)
    (hback : '\\' ∉ path.toList) (h : strip? root path = some rest) :
    isAbsolute (Text.forwardSlashes rest) = false := by
  obtain ⟨kept, rfl, hkept, hfirst, -⟩ := exists_of_strip?_eq_some hroot h
  cases kept with
  | nil => decide
  | cons s tail =>
    have hs : s ∈ Text.split '/' path := hkept s List.mem_cons_self
    exact not_isAbsolute_forwardSlashes_ofSegments (hfirst s tail rfl) (Text.no_slash_of_mem_split hs)
      (backslash_not_mem_of_mem_split hback hs)

/-! ## Paths elsewhere -/

theorem Component.IsStep.not_isAbsolute {c : Component} (h : c.IsStep) :
    isAbsolute c.text = false := by
  cases h with
  | parent => decide
  | name hs => exact not_isAbsolute_of_isName hs

theorem outside_of_strip?_eq_none (hroot : isAbsolute root = true) (h : strip? root path = none) :
    Outside root path := by
  rintro ⟨below, hbelow⟩
  obtain ⟨steps, -, hcomponents⟩ := components_of_isAbsolute hroot
  rw [strip?, ← hbelow, commonLength_append, hcomponents] at h
  simp at h

/-- The steps from one list of components to another. -/
def stepsTo (base target : List Component) : List Component :=
  List.replicate (base.length - commonLength target base) .parent ++
    target.drop (commonLength target base)

theorem difference_eq (target base : String) :
    difference target base = ofComponents (stepsTo (components base) (components target)) := rfl

theorem isStep_of_mem_stepsTo (hroot : isAbsolute root = true) (hpath : isAbsolute path = true)
    {c : Component} (hc : c ∈ stepsTo (components root) (components path)) : c.IsStep := by
  obtain ⟨rs, -, hrs⟩ := components_of_isAbsolute hroot
  obtain ⟨ps, hps, hcomponents⟩ := components_of_isAbsolute hpath
  have hcommon : commonLength (components path) (components root) = commonLength ps rs + 1 := by
    simp [hrs, hcomponents, commonLength]
  rcases List.mem_append.mp hc with hup | hdown
  · rw [List.eq_of_mem_replicate hup]
    exact .parent
  · rw [hcommon, hcomponents, List.drop_succ_cons] at hdown
    exact hps c (List.mem_of_mem_drop hdown)

/-- A path elsewhere is shown with a step up in front. -/
theorem ascends_of_outside (hroot : isAbsolute root = true) (hpath : isAbsolute path = true)
    (h : Outside root path) : Ascends (difference path root) := by
  have hlt := commonLength_lt h
  rw [commonLength_comm] at hlt
  obtain ⟨up, hup⟩ := Nat.exists_eq_add_of_lt hlt
  have hups : (components root).length - commonLength (components path) (components root) = up + 1 := by
    omega
  obtain ⟨more, hsteps⟩ : ∃ more, stepsTo (components root) (components path) = .parent :: more := by
    rw [stepsTo, hups, List.replicate_succ, List.cons_append]
    exact ⟨_, rfl⟩
  have hmore : ∀ c ∈ more, Component.IsStep c := fun c hc =>
    isStep_of_mem_stepsTo hroot hpath (hsteps ▸ List.mem_cons_of_mem _ hc)
  rw [difference_eq, hsteps]
  exact .ofComponents fun c hc => (hmore c hc).not_isAbsolute

/-! ## All paths -/

theorem relativeTo_of_isAbsolute (root : String) (hpath : isAbsolute path = true) :
    relativeTo root path = Text.forwardSlashes ((strip? root path).getD (difference path root)) := by
  have hfilled : path.isEmpty = false := by
    rw [Bool.eq_false_iff, Ne, String.isEmpty_iff]
    exact ne_empty_of_isAbsolute hpath
  rw [relativeTo, hfilled, hpath]
  cases strip? root path <;> rfl

/-- Nothing is absolute as seen from an absolute root. -/
theorem not_isAbsolute_relativeTo (hroot : isAbsolute root = true) (hback : '\\' ∉ path.toList) :
    isAbsolute (relativeTo root path) = false := by
  cases hpath : isAbsolute path with
  | false => rw [relativeTo_of_not_isAbsolute hroot hpath hback, hpath]
  | true =>
    rw [relativeTo_of_isAbsolute root hpath]
    cases hstrip : strip? root path with
    | none =>
      have hout := outside_of_strip?_eq_none hroot hstrip
      exact (ascends_of_outside hroot hpath hout).forwardSlashes.not_isAbsolute
    | some rest => exact not_isAbsolute_strip? hroot hback hstrip

/-- What is seen from a root is seen the same again. -/
theorem relativeTo_relativeTo (hroot : isAbsolute root = true) (hback : '\\' ∉ path.toList) :
    relativeTo root (relativeTo root path) = relativeTo root path :=
  relativeTo_of_not_isAbsolute hroot (not_isAbsolute_relativeTo hroot hback)
    (backslash_not_mem_relativeTo root path)

end Path

end SolutionAtlas
