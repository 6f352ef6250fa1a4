-- SUMMARY: Where a path leads from a place, and when its normal form leads there too.
import Mathlib
import SolutionAtlas.Proofs.Path.Steps

/-!
# Courses

A path that is walked from a place leads some levels up from there, and down again by names. Normalizing
keeps the course of an absolute path, and the names of a relative one. Of the levels that a relative path
leads up it keeps what is left when they are taken off in pairs. So the normal form leads where the path
leads unless that is two levels up or more.
-/

namespace SolutionAtlas

/-! ## Walking -/

namespace Place

/-- The place that a path leads to from a place; an absolute path leads there from everywhere. -/
def walk (p : Place) (path : String) : Place :=
  follow (if Path.isAbsolute path then [] else p) (Text.split '/' path)

/-- The place that a component leads to from a place. The root lies above itself. -/
def go (p : Place) : Path.Component → Place
  | .root => []
  | .current => p
  | .parent => p.dropLast
  | .name s => p ++ [s]

theorem follow_eq_foldl (p : Place) (segments : List String) :
    p.follow segments = (segments.filterMap Path.Component.ofSegment?).foldl go p := by
  induction segments generalizing p with
  | nil => rfl
  | cons s rest ih =>
    rw [follow, List.filterMap_cons]
    rcases Path.ofSegment?_cases s with ⟨hfiller, hs⟩ | ⟨hfiller, rfl, hs⟩ | ⟨hfiller, hparent, hs⟩
    · rw [if_pos hfiller, hs, ih]
    · rw [if_neg (by simp [hfiller]), if_pos (beq_self_eq_true _), hs, ih]
      rfl
    · rw [if_neg (by simp [hfiller]), if_neg (by simpa using hparent), hs, ih]
      rfl

/-- A path is walked component by component. -/
theorem walk_eq_foldl (p : Place) (path : String) : p.walk path = (Path.components path).foldl go p := by
  rw [walk, follow_eq_foldl]
  cases habs : Path.isAbsolute path with
  | true =>
    rw [Path.components_eq_filterMap habs]
    rfl
  | false =>
    obtain ⟨first, rest, hsplit⟩ := List.exists_cons_of_ne_nil (Text.split_ne_nil path)
    rw [Path.components, hsplit, habs, List.filterMap_cons]
    by_cases hfirst : first = "."
    · subst hfirst
      rfl
    · simp only [Bool.false_eq_true, if_false, beq_eq_false_iff_ne.mpr hfirst]
      cases Path.Component.ofSegment? first <;> rfl

end Place

namespace Path

variable {path : String}

/-! ## Absolute paths -/

/-- Taking the last step back takes off what it added, or stays at the root. -/
theorem Held.go_normalizeStep {acc : List Component} (h : Held acc) (c : Component) (p : Place) :
    (normalizeStep acc c).reverse.foldl Place.go p = Place.go (acc.reverse.foldl Place.go p) c := by
  cases c with
  | root => rfl
  | current => rfl
  | name s => rw [normalizeStep, List.reverse_cons, List.foldl_append]; rfl
  | parent =>
    obtain ⟨names, -, hacc⟩ := h
    cases names with
    | nil => rcases hacc with rfl | rfl <;> rfl
    | cons s names =>
      have hback (rest : List Component) (q : Place) :
          rest.reverse.foldl Place.go q = Place.go ((.name s :: rest).reverse.foldl Place.go q) .parent := by
        simp [Place.go]
      rcases hacc with rfl | rfl
      · exact hback _ p
      · exact hback _ p

theorem Held.foldl_go {acc steps : List Component} (h : Held acc)
    (hsteps : ∀ c ∈ steps, Component.IsStep c) (p : Place) :
    (steps.foldl normalizeStep acc).reverse.foldl Place.go p =
      steps.foldl Place.go (acc.reverse.foldl Place.go p) := by
  induction steps generalizing acc with
  | nil => rfl
  | cons c steps ih =>
    obtain ⟨hc, hsteps⟩ := List.forall_mem_cons.mp hsteps
    rw [List.foldl_cons, ih (h.step hc) hsteps, h.go_normalizeStep c p, List.foldl_cons]

theorem Held.components_ofComponents {acc : List Component} (h : Held acc) :
    components (ofComponents acc.reverse) = acc.reverse := by
  obtain ⟨names, hnames, hacc⟩ := h
  have hsteps : ∀ c ∈ names.reverse.map Component.name, c.IsStep :=
    isStep_of_named (hnames.mono (List.reverse_subset.mpr (List.Subset.refl names)))
  rcases hacc with rfl | rfl <;> rw [List.reverse_append, ← List.map_reverse]
  · exact Path.components_ofComponents hsteps
  · exact Path.components_ofComponents (List.forall_mem_cons.mpr ⟨.parent, hsteps⟩)

/-- The normal form of an absolute path leads where the path leads. -/
theorem walk_normalize_of_isAbsolute (h : isAbsolute path = true) (p : Place) :
    p.walk (normalize path) = p.walk path := by
  obtain ⟨steps, hsteps, hpath⟩ := components_of_isAbsolute h
  have hroot : Held [.root] := ⟨[], .nil, .inl rfl⟩
  rw [Place.walk_eq_foldl, Place.walk_eq_foldl, normalize, hpath, List.foldl_cons, normalizeStep,
    (hroot.foldl hsteps).components_ofComponents, hroot.foldl_go hsteps]
  rfl

/-! ## Relative paths -/

/-- How many levels a relative path leads up from where it starts, and by which names down from there. -/
structure Course where
  up : Nat
  down : Place
  deriving DecidableEq

namespace Course

/-- Goes on by a component: `..` takes the last name off again, or leads further up. -/
def go (c : Course) : Component → Course
  | .parent => if c.down = [] then ⟨c.up + 1, []⟩ else ⟨c.up, c.down.dropLast⟩
  | .name s => ⟨c.up, c.down ++ [s]⟩
  | .root | .current => c

/-- The place that a course leads to from a place that lies deep enough. -/
def endFrom (c : Course) (p : Place) : Place :=
  p.take (p.length - c.up) ++ c.down

/-- What is held of a course while a path is normalized, the last step first. One level up takes off the
one that is held. -/
def held (c : Course) : List Component :=
  (c.down.map .name).reverse ++ List.replicate (c.up % 2) .parent

variable {c : Course} {k : Component} {cs : List Component} {p : Place}

theorem up_le_go (c : Course) (k : Component) : c.up ≤ (c.go k).up := by
  cases k with
  | root => exact le_rfl
  | current => exact le_rfl
  | name s => exact le_rfl
  | parent =>
    rw [go]
    split
    · exact Nat.le_succ c.up
    · exact le_rfl

theorem up_le_foldl (c : Course) (cs : List Component) : c.up ≤ (cs.foldl go c).up := by
  induction cs generalizing c with
  | nil => exact le_rfl
  | cons k cs ih => exact (up_le_go c k).trans (ih (c.go k))

theorem go_endFrom (hk : k ≠ .root) (hdeep : (c.go k).up ≤ p.length) :
    Place.go (c.endFrom p) k = (c.go k).endFrom p := by
  cases k with
  | root => exact absurd rfl hk
  | current => rfl
  | name s => simp [Place.go, go, endFrom]
  | parent =>
    obtain ⟨up, down⟩ := c
    rcases List.eq_nil_or_concat down with rfl | ⟨down, s, rfl⟩
    · have hlt : up + 1 ≤ p.length := hdeep
      have hlevels : min (min (p.length - up) p.length - 1) (p.length - up) = p.length - (up + 1) := by omega
      simp only [Place.go, go, endFrom, if_true, List.append_nil, List.dropLast_eq_take, List.take_take,
        List.length_take, hlevels]
    · simp [Place.go, go, endFrom]

/-- A list of components leads where its course leads. -/
theorem foldl_go_endFrom (hcs : .root ∉ cs) (hdeep : (cs.foldl go c).up ≤ p.length) :
    cs.foldl Place.go (c.endFrom p) = (cs.foldl go c).endFrom p := by
  induction cs generalizing c with
  | nil => rfl
  | cons k cs ih =>
    rw [List.mem_cons, not_or] at hcs
    have hstep : (c.go k).up ≤ p.length := (up_le_foldl (c.go k) cs).trans hdeep
    rw [List.foldl_cons, go_endFrom (Ne.symm hcs.1) hstep]
    exact ih hcs.2 hdeep

theorem normalizeStep_held (hk : k ≠ .root) : normalizeStep c.held k = (c.go k).held := by
  cases k with
  | root => exact absurd rfl hk
  | current => rfl
  | name s => simp [normalizeStep, go, held]
  | parent =>
    obtain ⟨up, down⟩ := c
    rcases List.eq_nil_or_concat down with rfl | ⟨down, s, rfl⟩
    · rcases Nat.mod_two_eq_zero_or_one up with hup | hup
      · have hnext : (up + 1) % 2 = 1 := by omega
        simp [normalizeStep, go, held, hup, hnext]
      · have hnext : (up + 1) % 2 = 0 := by omega
        simp [normalizeStep, go, held, hup, hnext]
    · simp [normalizeStep, go, held]

theorem foldl_held (hcs : .root ∉ cs) : cs.foldl normalizeStep c.held = (cs.foldl go c).held := by
  induction cs generalizing c with
  | nil => rfl
  | cons k cs ih =>
    rw [List.mem_cons, not_or] at hcs
    rw [List.foldl_cons, normalizeStep_held (Ne.symm hcs.1), ih hcs.2, List.foldl_cons]

theorem foldl_go_steps (up : Nat) (down : Place) :
    (List.replicate up Component.parent ++ down.map Component.name).foldl go ⟨0, []⟩ = ⟨up, down⟩ := by
  have hup (n m : Nat) : (List.replicate n Component.parent).foldl go ⟨m, []⟩ = ⟨m + n, []⟩ := by
    induction n generalizing m with
    | zero => rfl
    | succ n ih =>
      rw [List.replicate_succ, List.foldl_cons]
      exact (ih (m + 1)).trans (by rw [Nat.add_right_comm, Nat.add_assoc])
  have hdown (names front : Place) :
      (names.map Component.name).foldl go ⟨up, front⟩ = ⟨up, front ++ names⟩ := by
    induction names generalizing front with
    | nil => rw [List.append_nil]; rfl
    | cons s names ih =>
      rw [List.map_cons, List.foldl_cons, go, ih, List.append_assoc]
      rfl
  rw [List.foldl_append, hup, Nat.zero_add, hdown, List.nil_append]

end Course

/-- The course of a relative path. -/
def course (path : String) : Course :=
  (components path).foldl Course.go ⟨0, []⟩

theorem step_of_mem_components (h : isAbsolute path = false) {c : Component} (hc : c ∈ components path) :
    c = .current ∨ c.IsStep := by
  obtain ⟨steps, hsteps, heq | heq⟩ := components_of_not_isAbsolute h
  · exact .inr (hsteps c (heq ▸ hc))
  · rw [heq] at hc
    exact (List.mem_cons.mp hc).imp_right (hsteps c)

/-- The plain spelling of a path has its components. -/
theorem components_tidy (path : String) : components (tidy path) = components path := by
  rw [tidy]
  cases habs : isAbsolute path with
  | true =>
    obtain ⟨steps, hsteps, hcomponents⟩ := components_of_isAbsolute habs
    rw [hcomponents, components_ofComponents hsteps]
  | false =>
    obtain ⟨steps, hsteps, hcomponents | hcomponents⟩ := components_of_not_isAbsolute habs
    · rw [hcomponents, components_ofSteps hsteps]
    · have hcurrent : components (ofComponents [.current]) = [.current] := by decide
      rw [hcomponents]
      exact components_ofComponents_append hcurrent (List.cons_ne_nil _ _) hsteps

theorem Course.named_foldl {c : Course} {cs : List Component} (h : c.down.Named)
    (hcs : ∀ k ∈ cs, k = .current ∨ k.IsStep) : (cs.foldl go c).down.Named := by
  induction cs generalizing c with
  | nil => exact h
  | cons k cs ih =>
    obtain ⟨hk, hcs⟩ := List.forall_mem_cons.mp hcs
    refine ih ?_ hcs
    rcases hk with rfl | hk
    · exact h
    · cases hk with
      | parent =>
        rw [go]
        split
        · exact .nil
        · exact h.dropLast
      | name hs => exact h.append fun t ht => List.mem_singleton.mp ht ▸ hs

theorem named_course (h : isAbsolute path = false) : (course path).down.Named :=
  Course.named_foldl .nil fun _ hc => step_of_mem_components h hc

/-- The normal form of a relative path has the names of its course, and a level up when their number is odd. -/
theorem components_normalize_of_relative (h : isAbsolute path = false) :
    components (normalize path) =
      List.replicate ((course path).up % 2) .parent ++ (course path).down.map .name := by
  have hheld : (components path).foldl normalizeStep [] = (course path).held :=
    Course.foldl_held (c := ⟨0, []⟩) (root_not_mem_components h)
  have hsteps : ∀ c ∈ (course path).held.reverse, c.IsStep := by
    intro c hc
    rw [List.mem_reverse, Course.held, List.mem_append, List.mem_reverse] at hc
    rcases hc with hname | hparent
    · exact isStep_of_named (named_course h) c hname
    · rw [List.eq_of_mem_replicate hparent]
      exact .parent
  rw [normalize, hheld, components_ofSteps hsteps, Course.held, List.reverse_append, List.reverse_reverse,
    List.reverse_replicate]

/-- Of the levels that a relative path leads up, normalizing keeps what is left when they are taken off in
pairs. -/
theorem course_normalize (h : isAbsolute path = false) :
    course (normalize path) = ⟨(course path).up % 2, (course path).down⟩ := by
  rw [course, components_normalize_of_relative h, Course.foldl_go_steps]

theorem walk_of_relative (hroot : .root ∉ components path) {p : Place}
    (hdeep : (course path).up ≤ p.length) : p.walk path = (course path).endFrom p := by
  have hstart : (⟨0, []⟩ : Course).endFrom p = p := by simp [Course.endFrom]
  have hrun := Course.foldl_go_endFrom (c := ⟨0, []⟩) hroot hdeep
  rw [hstart] at hrun
  rw [Place.walk_eq_foldl, hrun, course]

/-- From a place that lies deep enough, the normal form of a path leads where the path leads exactly when
the path is absolute or leads up by one level at most. Of more levels every two are lost. -/
theorem walk_normalize_eq_iff (path : String) (base : Place)
    (hdeep : isAbsolute path = false → (course path).up ≤ base.length) :
    (base.walk (normalize path) = base.walk path ↔ isAbsolute path = true ∨ (course path).up ≤ 1) ∧
      (isAbsolute path = false →
        course (normalize path) = ⟨(course path).up % 2, (course path).down⟩) := by
  refine ⟨?_, course_normalize⟩
  cases habs : isAbsolute path with
  | true => simp [walk_normalize_of_isAbsolute habs]
  | false =>
    have hdeep := hdeep habs
    have hcourse := course_normalize habs
    have hroot : .root ∉ components (normalize path) := by
      rw [components_normalize_of_relative habs]
      simp
    have hless : (course path).up % 2 ≤ (course path).up := Nat.mod_le _ 2
    have hdeep' : (course (normalize path)).up ≤ base.length := by
      rw [hcourse]
      exact hless.trans hdeep
    rw [walk_of_relative hroot hdeep', walk_of_relative (root_not_mem_components habs) hdeep, hcourse,
      Course.endFrom, Course.endFrom, List.append_left_inj]
    constructor
    · intro hsame
      have hlength := congrArg List.length hsame
      simp only [List.length_take] at hlength
      omega
    · rintro (habs' | hup)
      · cases habs'
      · have hkept : (course path).up % 2 = (course path).up := by omega
        rw [hkept]

/-- Two levels up, and down by a name: normalizing leaves the name only. -/
theorem walk_normalize_eq_iff_two_up :
    (course "../../Lib").up ≤ ["ws", "App", "src"].length ∧
      normalize "../../Lib" = "Lib" ∧
      Place.walk ["ws", "App", "src"] "../../Lib" = ["ws", "Lib"] ∧
      Place.walk ["ws", "App", "src"] (normalize "../../Lib") ≠
        Place.walk ["ws", "App", "src"] "../../Lib" := by
  have hcourse : course "../../Lib" = ⟨2, ["Lib"]⟩ := by decide +kernel
  have hdeep : (course "../../Lib").up ≤ ["ws", "App", "src"].length := by
    rw [hcourse]
    decide
  obtain ⟨hiff, -⟩ := walk_normalize_eq_iff "../../Lib" ["ws", "App", "src"] fun _ => hdeep
  refine ⟨hdeep, by decide +kernel, by decide +kernel, fun hsame => ?_⟩
  rcases hiff.mp hsame with habs | hup
  · exact absurd habs (by decide +kernel)
  · rw [hcourse] at hup
    exact absurd hup (by decide)

end Path

end SolutionAtlas
