-- SUMMARY: A path as seen from an absolute root is known by its steps, and two normal paths differ in theirs.
import Mathlib
import SolutionAtlas.Proofs.Path.Parents

/-!
# The steps of a path seen from a root

Whether a path lies below the root or elsewhere, what is shown of it has the components of one list of
steps: up to what the path shares with the root, and down again. From the steps and the root the path can
be told, as long as it does not itself step up on its way down.
-/

namespace SolutionAtlas

namespace Path

variable {root path : String}

/-! ## Steps tell where they lead -/

theorem commonLength_le (as bs : List Component) : commonLength as bs ≤ as.length := by
  fun_induction commonLength as bs with
  | case1 a as bs ih => simpa using ih
  | case2 => exact Nat.zero_le _
  | case3 => exact Nat.zero_le _

theorem take_commonLength (as bs : List Component) :
    as.take (commonLength as bs) = bs.take (commonLength as bs) := by
  fun_induction commonLength as bs with
  | case1 a as bs ih => rw [List.take_succ_cons, List.take_succ_cons, ih]
  | case2 => rfl
  | case3 => rfl

/-- The way to what lies below goes down only. -/
theorem stepsTo_append (base below : List Component) : stepsTo base (base ++ below) = below := by
  have hcommon : commonLength (base ++ below) base = base.length := by
    rw [commonLength_comm, commonLength_append]
  rw [stepsTo, hcommon, Nat.sub_self, List.replicate_zero, List.nil_append, List.drop_left]

/-- The same steps lead to the same components, when these begin as the base does and step up at most at
their second place. -/
theorem eq_of_stepsTo_eq {base ts us : List Component}
    (hts : 0 < commonLength ts base) (hus : 0 < commonLength us base)
    (hdown : Component.parent ∉ ts.drop 2) (hdown' : Component.parent ∉ us.drop 2)
    (h : stepsTo base ts = stepsTo base us) : ts = us := by
  wlog hle : commonLength ts base ≤ commonLength us base generalizing ts us
  · exact (this hus hts hdown' hdown h.symm (Nat.le_of_not_le hle)).symm
  obtain ⟨more, hmore⟩ := Nat.exists_eq_add_of_le hle
  have hbase : commonLength us base ≤ base.length := by
    rw [commonLength_comm]
    exact commonLength_le base us
  have hups : base.length - commonLength ts base = (base.length - commonLength us base) + more := by omega
  have hrest : List.replicate more .parent ++ ts.drop (commonLength ts base) =
      us.drop (commonLength us base) := by
    rw [stepsTo, stepsTo, hups, List.replicate_add, List.append_assoc] at h
    exact List.append_cancel_left h
  cases more with
  | zero =>
    have hsame : commonLength us base = commonLength ts base := hmore
    rw [hsame] at hrest
    have hshared : ts.take (commonLength ts base) = us.take (commonLength ts base) := by
      rw [take_commonLength ts base, ← hsame, take_commonLength us base]
    calc ts
      _ = ts.take (commonLength ts base) ++ ts.drop (commonLength ts base) :=
        (List.take_append_drop _ ts).symm
      _ = us.take (commonLength ts base) ++ us.drop (commonLength ts base) := by
        rw [hshared]
        exact congrArg _ hrest
      _ = us := List.take_append_drop _ us
  | succ more =>
    -- The shorter way would step up where the longer one has come down already.
    have hup : Component.parent ∈ us.drop (commonLength us base) := by
      rw [← hrest]
      exact List.mem_append_left _ (List.mem_replicate.mpr ⟨Nat.succ_ne_zero more, rfl⟩)
    have hfar : 2 ≤ commonLength us base := by omega
    exact absurd ((List.drop_sublist_drop_left us hfar).subset hup) hdown'

/-! ## Steps of a text -/

theorem Component.IsStep.components_text {c : Component} (h : c.IsStep) : components c.text = [c] := by
  cases h with
  | parent => rfl
  | name hs => exact components_of_isName hs

/-- Steps that are put together can be taken apart again. -/
theorem components_ofSteps {steps : List Component} (h : ∀ c ∈ steps, c.IsStep) :
    components (ofComponents steps) = steps := by
  cases steps with
  | nil => rfl
  | cons c steps =>
    obtain ⟨hc, hsteps⟩ := List.forall_mem_cons.mp h
    have halone : ofComponents [c] = c.text := by simp [ofComponents, join, hc.not_isAbsolute]
    have hfirst : components (ofComponents [c]) = [c] := by rw [halone, hc.components_text]
    exact components_ofComponents_append hfirst (List.cons_ne_nil c []) hsteps

/-- The components of segments that begin with no filler are what the segments stand for. -/
theorem components_ofSegments {segments : List String} (h : ∀ s ∈ segments, '/' ∉ s.toList)
    (hfirst : ∀ s rest, segments = s :: rest → isFiller s = false) :
    components (ofSegments segments) = segments.filterMap Component.ofSegment? := by
  cases segments with
  | nil => rfl
  | cons s rest =>
    have hs : isFiller s = false := hfirst s rest rfl
    obtain ⟨hfilled, hcurrent⟩ : s ≠ "" ∧ s ≠ "." := by
      constructor <;> rintro rfl <;> cases hs
    rw [components_ofSegments_cons h, startOf, if_neg fun hempty => hfilled hempty.1, if_neg hcurrent,
      List.filterMap_cons]
    cases Component.ofSegment? s <;> rfl

/-! ## Texts without a backslash -/

theorem mem_join {c : Char} {more : String} (h : c ∈ (join path more).toList) :
    c ∈ path.toList ∨ c = '/' ∨ c ∈ more.toList := by
  rw [join] at h
  split at h
  · exact .inr (.inr h)
  · split at h <;> simp only [String.toList_append, List.mem_append] at h
    · exact h.imp_right .inr
    · rcases h with (h | h) | h
      · exact .inl h
      · exact .inr (.inl (by simpa using h))
      · exact .inr (.inr h)

theorem backslash_not_mem_ofComponents {cs : List Component} (h : ∀ c ∈ cs, '\\' ∉ c.text.toList) :
    '\\' ∉ (ofComponents cs).toList := by
  induction cs using List.reverseRecOn with
  | nil => simp [ofComponents]
  | append_singleton cs c ih =>
    intro hmem
    rw [ofComponents_concat] at hmem
    rcases mem_join hmem with hfront | hslash | hlast
    · exact ih (fun c' hc' => h c' (List.mem_append_left _ hc')) hfront
    · exact absurd hslash (by decide)
    · exact h c (by simp) hlast

theorem backslash_not_mem_ofSegments {segments : List String} (h : ∀ s ∈ segments, '\\' ∉ s.toList) :
    '\\' ∉ (ofSegments segments).toList := by
  induction segments with
  | nil => simp [ofSegments]
  | cons s rest ih =>
    have hs := h s List.mem_cons_self
    have hrest := ih fun t ht => h t (List.mem_cons_of_mem s ht)
    rcases eq_or_ne rest [] with rfl | hne
    · rwa [ofSegments, String.intercalate_singleton]
    · rw [ofSegments, String.intercalate_cons_of_ne_nil hne]
      simp only [String.toList_append, List.mem_append, not_or]
      exact ⟨⟨hs, by decide⟩, hrest⟩

/-! ## Seen from a root -/

theorem backslash_not_mem_component (h : isAbsolute path = true) (hback : '\\' ∉ path.toList)
    {c : Component} (hc : c ∈ components path) : '\\' ∉ c.text.toList := by
  rw [components_eq_filterMap h] at hc
  rcases List.mem_cons.mp hc with rfl | hc
  · decide
  · obtain ⟨s, hs, hcs⟩ := List.mem_filterMap.mp hc
    rcases ofSegment?_cases s with ⟨-, h⟩ | ⟨-, -, h⟩ | ⟨-, -, h⟩
    · rw [h] at hcs
      cases hcs
    · rw [h] at hcs
      cases hcs
      decide
    · rw [h] at hcs
      cases hcs
      exact backslash_not_mem_of_mem_split hback hs

/-- What is left of a path below a root has the components behind those of the root. -/
theorem components_append_strip? {rest : String} (hroot : isAbsolute root = true)
    (hpath : isAbsolute path = true) (h : strip? root path = some rest) :
    components root ++ components rest = components path := by
  obtain ⟨steps, -, hrs⟩ := components_of_isAbsolute hroot
  obtain ⟨below, hbelow⟩ : components root <+: components path := by
    by_contra hout
    rw [strip?_eq_none hout] at h
    cases h
  have hdown : (Text.split '/' path).filterMap Component.ofSegment? = steps ++ below := by
    rw [components_eq_filterMap hpath, hrs] at hbelow
    exact (List.cons.inj hbelow).2.symm
  obtain ⟨kept, rfl, hkept, hfirst, hcomponents⟩ := exists_of_strip?_eq_some hroot h
  rw [hdown, hrs, List.length_cons, Nat.add_sub_cancel, List.drop_left] at hcomponents
  rw [components_ofSegments (fun s hs => Text.no_slash_of_mem_split (hkept s hs)) hfirst, hcomponents, hbelow]

/-- What is shown of a path below the root has the components that lead down to it. -/
theorem components_strip? {rest : String} (hroot : isAbsolute root = true)
    (hpath : isAbsolute path = true) (hback : '\\' ∉ path.toList) (h : strip? root path = some rest) :
    components rest = stepsTo (components root) (components path) ∧ '\\' ∉ rest.toList := by
  constructor
  · rw [← components_append_strip? hroot hpath h, stepsTo_append]
  · obtain ⟨kept, rfl, hkept, -⟩ := exists_of_strip?_eq_some hroot h
    exact backslash_not_mem_ofSegments fun s hs => backslash_not_mem_of_mem_split hback (hkept s hs)

/-- What is shown of a path elsewhere has the components that lead up and down to it. -/
theorem components_difference (hroot : isAbsolute root = true) (hpath : isAbsolute path = true)
    (hback : '\\' ∉ path.toList) :
    components (difference path root) = stepsTo (components root) (components path) ∧
      '\\' ∉ (difference path root).toList := by
  rw [difference_eq]
  refine ⟨components_ofSteps fun c hc => isStep_of_mem_stepsTo hroot hpath hc, ?_⟩
  refine backslash_not_mem_ofComponents fun c hc => ?_
  rcases List.mem_append.mp hc with hup | hdown
  · rw [List.eq_of_mem_replicate hup]
    decide
  · exact backslash_not_mem_component hpath hback (List.mem_of_mem_drop hdown)

/-- Wherever a path lies, it is shown by the steps that lead to it from the root. -/
theorem components_relativeTo (hroot : isAbsolute root = true) (hpath : isAbsolute path = true)
    (hback : '\\' ∉ path.toList) :
    components (relativeTo root path) = stepsTo (components root) (components path) := by
  rw [relativeTo_of_isAbsolute root hpath]
  cases hstrip : strip? root path with
  | none =>
    obtain ⟨hsteps, hplain⟩ := components_difference hroot hpath hback
    rw [Option.getD_none, Text.forwardSlashes_eq_self hplain, hsteps]
  | some rest =>
    obtain ⟨hsteps, hplain⟩ := components_strip? hroot hpath hback hstrip
    rw [Option.getD_some, Text.forwardSlashes_eq_self hplain, hsteps]

/-! ## Normal paths -/

theorem Straight.parent_not_mem (h : Straight path) : Component.parent ∉ (components path).drop 2 := by
  have hnames (names : Place) (n : Nat) : Component.parent ∉ (names.map Component.name).drop n := by
    intro hmem
    obtain ⟨s, -, hs⟩ := List.mem_map.mp (List.mem_of_mem_drop hmem)
    cases hs
  obtain ⟨names, -, hdown | hup⟩ := h
  · rw [hdown, List.drop_succ_cons]
    exact hnames names 1
  · rw [hup, List.drop_succ_cons, List.drop_succ_cons]
    exact hnames names 0

/-- An absolute path without a backslash that normalizing leaves as it is. -/
structure Normal (path : String) : Prop where
  absolute : isAbsolute path = true
  normalized : normalize path = path
  plain : '\\' ∉ path.toList

instance (path : String) : Decidable (Normal path) :=
  decidable_of_iff (isAbsolute path = true ∧ normalize path = path ∧ '\\' ∉ path.toList)
    ⟨fun ⟨habs, hnormal, hplain⟩ => ⟨habs, hnormal, hplain⟩,
      fun h => ⟨h.absolute, h.normalized, h.plain⟩⟩

namespace Normal

variable {path' : String}

theorem straight (h : Normal path) : Straight path := by
  have hstraight := straight_normalize h.absolute
  rwa [h.normalized] at hstraight

theorem tidy_eq (h : Normal path) : tidy path = path := by
  have htidy := tidy_normalize h.absolute
  rwa [h.normalized] at htidy

theorem commonLength_pos (h : Normal path) (hroot : isAbsolute root = true) :
    0 < commonLength (components path) (components root) := by
  rw [components_eq_filterMap hroot, components_eq_filterMap h.absolute, commonLength, if_pos rfl]
  exact Nat.succ_pos _

/-- Normal paths that are shown the same are the same, wherever they lie. -/
theorem eq_of_relativeTo_eq (h : Normal path) (h' : Normal path') (hroot : isAbsolute root = true)
    (hshown : relativeTo root path = relativeTo root path') : path = path' := by
  have hsteps : stepsTo (components root) (components path) =
      stepsTo (components root) (components path') := by
    rw [← components_relativeTo hroot h.absolute h.plain,
      ← components_relativeTo hroot h'.absolute h'.plain, hshown]
  have hcomponents : components path = components path' :=
    eq_of_stepsTo_eq (h.commonLength_pos hroot) (h'.commonLength_pos hroot) h.straight.parent_not_mem
      h'.straight.parent_not_mem hsteps
  rw [← h.tidy_eq, ← h'.tidy_eq, tidy, tidy, hcomponents]

end Normal

end Path

end SolutionAtlas
