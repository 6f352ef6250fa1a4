-- SUMMARY: Joined and normalized paths, by their components.
import Mathlib
import SolutionAtlas.Proofs.Disk.Places
import SolutionAtlas.Proofs.Path.Relative

/-!
# Joined and normalized paths

Joining a path to another appends its components, whatever the spelling of the other. So the components
of a path that is put together from components are these again, and the components of a normalized path
go straight down: there is no step up behind a name.
-/

namespace SolutionAtlas

theorem Text.split_ne_nil (text : String) : split '/' text ≠ [] := by
  rw [split, splitChars_eq_splitOnP, Ne, List.map_eq_nil_iff]
  exact List.splitOnP_ne_nil _ _

theorem Text.split_of_not_mem {c : Char} {s : String} (h : c ∉ s.toList) : split c s = [s] := by
  have hpieces : s.toList.splitOnP (· == c) = [s.toList] :=
    List.splitOnP_eq_singleton fun b hb => beq_false_of_ne fun heq => h (heq ▸ hb)
  rw [split, splitChars_eq_splitOnP, hpieces, List.map_singleton, String.ofList_toList]

namespace Path

variable {path more : String}

theorem ne_empty_of_isAbsolute (h : isAbsolute path = true) : path ≠ "" := by
  rintro rfl
  obtain ⟨rest, hrest⟩ := Text.startsWith_slash.mp h
  cases hrest

/-! ## Joining -/

/-- What is joined to a path comes behind its segments; fillers at its end may be lost. -/
theorem split_join (hpath : path ≠ "") (hmore : isAbsolute more = false) :
    isAbsolute (join path more) = isAbsolute path ∧ ∃ first segments fillers,
      (∀ s ∈ fillers, isFiller s = true) ∧ Text.split '/' path = first :: segments ++ fillers ∧
      Text.split '/' (join path more) = first :: segments ++ Text.split '/' more := by
  obtain ⟨c, cs, hcs⟩ := List.exists_cons_of_ne_nil fun h => hpath (String.toList_eq_nil_iff.mp h)
  have hfilled : path.isEmpty = false := by simpa [String.isEmpty_iff] using hpath
  have hstill (rest : String) : isAbsolute (path ++ rest) = isAbsolute path := by
    rw [Bool.eq_iff_iff, isAbsolute, isAbsolute, Text.startsWith_slash, Text.startsWith_slash,
      String.toList_append, hcs]
    simp
  rw [join, hmore, hfilled]
  simp only [Bool.false_eq_true, if_false, Bool.false_or]
  by_cases hends : Text.endsWith path "/" = true
  · obtain ⟨front, hfront⟩ := Text.endsWith_slash.mp hends
    have hslash : path = String.ofList front ++ "/" := by
      rw [← String.ofList_toList (s := path), hfront, String.ofList_append]
    obtain ⟨first, segments, hsplit⟩ := List.exists_cons_of_ne_nil (Text.split_ne_nil (String.ofList front))
    rw [if_pos hends]
    refine ⟨hstill _, first, segments, [""], ?_, ?_, ?_⟩
    · intro s hs
      rw [List.mem_singleton.mp hs]
      rfl
    · have happend := Text.split_append (String.ofList front) ""
      rw [String.append_empty, ← hslash, hsplit] at happend
      exact happend
    · rw [hslash, Text.split_append, hsplit]
  · obtain ⟨first, segments, hsplit⟩ := List.exists_cons_of_ne_nil (Text.split_ne_nil path)
    rw [if_neg hends]
    refine ⟨?_, first, segments, [], by simp, ?_, ?_⟩
    · rw [String.append_assoc]
      exact hstill _
    · rw [hsplit, List.append_nil]
    · rw [Text.split_append, hsplit]

theorem ofSegment?_of_isFiller {s : String} (h : isFiller s = true) : Component.ofSegment? s = none := by
  rw [isFiller] at h
  rw [Component.ofSegment?, if_pos h]

/-- A segment stands for nothing, for a step up, or for its name. -/
theorem ofSegment?_cases (s : String) :
    (isFiller s = true ∧ Component.ofSegment? s = none) ∨
      (isFiller s = false ∧ s = ".." ∧ Component.ofSegment? s = some .parent) ∨
      (isFiller s = false ∧ s ≠ ".." ∧ Component.ofSegment? s = some (.name s)) := by
  cases hfiller : isFiller s with
  | true => exact .inl ⟨rfl, ofSegment?_of_isFiller hfiller⟩
  | false =>
    have hfilled : (s.isEmpty || s == ".") = false := hfiller
    by_cases hparent : s = ".."
    · exact .inr (.inl ⟨rfl, hparent, by simp [Component.ofSegment?, hparent]⟩)
    · exact .inr (.inr ⟨rfl, hparent, by simp [Component.ofSegment?, hfilled, hparent]⟩)

theorem filterMap_fillers {fillers : List String} (h : ∀ s ∈ fillers, isFiller s = true) :
    fillers.filterMap Component.ofSegment? = [] :=
  List.filterMap_eq_nil_iff.mpr fun s hs => ofSegment?_of_isFiller (h s hs)

theorem components_join (hpath : path ≠ "") (hmore : isAbsolute more = false) :
    components (join path more) =
      components path ++ (Text.split '/' more).filterMap Component.ofSegment? := by
  obtain ⟨hstill, first, segments, fillers, hfillers, hsplit, hjoin⟩ := split_join hpath hmore
  rw [components, components, hsplit, hjoin, hstill]
  simp only [List.cons_append, List.filterMap_append, filterMap_fillers hfillers, List.append_nil,
    List.append_assoc]

theorem components_join_segment {s : String} (hpath : path ≠ "") (hslash : '/' ∉ s.toList) :
    components (join path s) = components path ++ (Component.ofSegment? s).toList := by
  have hrelative : isAbsolute s = false := by
    rw [Bool.eq_false_iff]
    intro habs
    obtain ⟨rest, hrest⟩ := Text.startsWith_slash.mp habs
    exact hslash (by simp [hrest])
  rw [components_join hpath hrelative, Text.split_of_not_mem hslash, List.filterMap_cons]
  cases Component.ofSegment? s <;> rfl

theorem components_of_isName {name : String} (h : IsName name) : components name = [.name name] := by
  have hfirst : (name == ".") = false := by
    rw [beq_eq_false_iff_ne]
    rintro rfl
    exact absurd h.not_filler (by decide)
  rw [components, Text.split_of_not_mem h.no_slash]
  simp [not_isAbsolute_of_isName h, hfirst, ofSegment?_of_isName h]

/-- The name that is joined to a path is its last component, however the path is spelled. -/
theorem components_join_name {s : String} (h : IsName s) (path : String) :
    ∃ cs, components (join path s) = cs ++ [.name s] := by
  rcases eq_or_ne path "" with rfl | hpath
  · have hfirst : s ≠ "." := by
      rintro rfl
      exact absurd h.not_filler (by decide)
    have hrelative : isAbsolute s = false := not_isAbsolute_of_isName h
    refine ⟨[], ?_⟩
    simp [join, hrelative, components, Text.split_of_not_mem h.no_slash, hfirst, ofSegment?_of_isName h]
  · exact ⟨components path, by rw [components_join_segment hpath h.no_slash, ofSegment?_of_isName h]; rfl⟩

/-! ## Putting together -/

/-- A step down or up. -/
inductive Component.IsStep : Component → Prop
  | parent : IsStep .parent
  | name {s : String} (h : IsName s) : IsStep (.name s)

theorem Component.IsStep.components_join {c : Component} (h : c.IsStep) (hpath : path ≠ "") :
    components (join path c.text) = components path ++ [c] := by
  cases h with
  | parent => exact components_join_segment hpath (by decide)
  | name hs =>
    rw [Component.text, components_join_segment hpath hs.no_slash, ofSegment?_of_isName hs]
    rfl

theorem ofComponents_concat (cs : List Component) (c : Component) :
    ofComponents (cs ++ [c]) = join (ofComponents cs) c.text := by
  rw [ofComponents, List.foldl_append]
  rfl

/-- Steps that are put behind a path become its last components. -/
theorem components_ofComponents_append {start steps : List Component}
    (hstart : components (ofComponents start) = start) (hne : start ≠ []) (h : ∀ c ∈ steps, c.IsStep) :
    components (ofComponents (start ++ steps)) = start ++ steps := by
  induction steps using List.reverseRecOn with
  | nil => rw [List.append_nil, hstart]
  | append_singleton steps c ih =>
    have hfront := ih fun c' hc' => h c' (List.mem_append_left _ hc')
    have hfilled : ofComponents (start ++ steps) ≠ "" := by
      intro hempty
      rw [hempty] at hfront
      exact hne (List.append_eq_nil_iff.mp hfront.symm).1
    rw [← List.append_assoc, ofComponents_concat, (h c (by simp)).components_join hfilled, hfront]

/-- Taking an absolute path apart gives the components that it was put together from. -/
theorem components_ofComponents {steps : List Component} (h : ∀ c ∈ steps, c.IsStep) :
    components (ofComponents (.root :: steps)) = .root :: steps := by
  have hroot : components (ofComponents [.root]) = [.root] := by decide
  exact components_ofComponents_append hroot (List.cons_ne_nil _ _) h

/-! ## Segments -/

theorem dropFillersAtEnd_concat (segments : List String) (s : String) :
    dropFillersAtEnd (segments ++ [s]) =
      if isFiller s then dropFillersAtEnd segments else segments ++ [s] := by
  rw [dropFillersAtEnd, List.reverse_concat, List.dropWhile_cons]
  split
  · rfl
  · rw [List.reverse_cons, List.reverse_reverse]

/-- What is dropped at the end are fillers. -/
theorem dropFillersAtEnd_append (segments : List String) :
    ∃ fillers, (∀ s ∈ fillers, isFiller s = true) ∧ dropFillersAtEnd segments ++ fillers = segments := by
  induction segments using List.reverseRecOn with
  | nil => exact ⟨[], by simp, rfl⟩
  | append_singleton segments s ih =>
    rw [dropFillersAtEnd_concat]
    split
    · rename_i hs
      obtain ⟨fillers, hfillers, happend⟩ := ih
      refine ⟨fillers ++ [s], fun t ht => ?_, by rw [← List.append_assoc, happend]⟩
      rcases List.mem_append.mp ht with ht | ht
      · exact hfillers t ht
      · exact List.mem_singleton.mp ht ▸ hs
    · exact ⟨[], by simp, List.append_nil _⟩

theorem split_ofSegments {segments : List String} (h : ∀ s ∈ segments, '/' ∉ s.toList)
    (hne : segments ≠ []) : Text.split '/' (ofSegments segments) = segments := by
  induction segments with
  | nil => exact absurd rfl hne
  | cons s rest ih =>
    have hs := Text.split_of_not_mem (h s List.mem_cons_self)
    rcases eq_or_ne rest [] with rfl | hrest
    · rw [ofSegments, String.intercalate_singleton, hs]
    · rw [ofSegments, String.intercalate_cons_of_ne_nil hrest, Text.split_append, hs]
      exact congrArg (s :: ·) (ih (fun t ht => h t (List.mem_cons_of_mem s ht)) hrest)

/-! ## Parents -/

theorem split_of_isAbsolute (h : isAbsolute path = true) :
    ∃ rest, rest ≠ [] ∧ Text.split '/' path = "" :: rest := by
  obtain ⟨tail, htail⟩ := Text.startsWith_slash.mp h
  have hpath : path = "/" ++ String.ofList tail := String.toList_inj.mp (by simp [htail])
  exact ⟨_, Text.split_ne_nil (String.ofList tail), hpath ▸ Text.split_slash_append _⟩

theorem components_eq_filterMap (h : isAbsolute path = true) :
    components path = .root :: (Text.split '/' path).filterMap Component.ofSegment? := by
  obtain ⟨rest, -, hsplit⟩ := split_of_isAbsolute h
  rw [components, hsplit, h, List.filterMap_cons]
  rfl

theorem isAbsolute_ofSegments {kept : List String} (h : kept ≠ []) :
    isAbsolute (ofSegments ("" :: kept)) = true := by
  rw [← path_eq_ofSegments h]
  exact isAbsolute_path kept

theorem isAbsolute_trimEnd (h : isAbsolute path = true) : isAbsolute (trimEnd path) = true := by
  obtain ⟨rest, -, hsplit⟩ := split_of_isAbsolute h
  rw [trimEnd, hsplit]
  dsimp only
  split
  · rw [if_pos h]
    rfl
  · rename_i kept hkept
    exact isAbsolute_ofSegments hkept

/-- The parent of an absolute path is absolute. -/
theorem isAbsolute_parent? (h : isAbsolute path = true) {parent : String}
    (hparent : parent? path = some parent) : isAbsolute parent = true := by
  obtain ⟨rest, hrest, hsplit⟩ := split_of_isAbsolute (isAbsolute_trimEnd h)
  rw [parent?] at hparent
  split at hparent
  · cases hparent
  · cases hparent
  · rw [hsplit] at hparent
    dsimp only at hparent
    split at hparent
    · rw [if_neg (by simpa using hrest), if_pos h] at hparent
      cases hparent
      rfl
    · rename_i kept hkept
      cases hparent
      exact isAbsolute_trimEnd (isAbsolute_ofSegments hkept)

/-! ## Normalizing -/

/-- An absolute path that only goes down, but for a step at the root that leads nowhere. -/
def Straight (path : String) : Prop :=
  ∃ names : Place, names.Named ∧
    (components path = .root :: names.map .name ∨ components path = .root :: .parent :: names.map .name)

theorem isStep_of_ofSegment? {s : String} {c : Component} (hslash : '/' ∉ s.toList)
    (h : Component.ofSegment? s = some c) : c.IsStep := by
  rcases ofSegment?_cases s with ⟨-, hs⟩ | ⟨-, -, hs⟩ | ⟨hfiller, hparent, hs⟩
  · rw [hs] at h
    cases h
  · rw [hs] at h
    cases h
    exact .parent
  · rw [hs] at h
    cases h
    exact .name ⟨hfiller, hparent, hslash⟩

theorem components_of_isAbsolute (h : isAbsolute path = true) :
    ∃ steps, (∀ c ∈ steps, Component.IsStep c) ∧ components path = .root :: steps := by
  refine ⟨_, fun c hc => ?_, components_eq_filterMap h⟩
  obtain ⟨s, hs, hcs⟩ := List.mem_filterMap.mp hc
  exact isStep_of_ofSegment? (Text.no_slash_of_mem_split hs) hcs

/-- A relative path consists of steps, and may begin with the current directory. -/
theorem components_of_not_isAbsolute (h : isAbsolute path = false) :
    ∃ steps, (∀ c ∈ steps, Component.IsStep c) ∧
      (components path = steps ∨ components path = .current :: steps) := by
  obtain ⟨first, rest, hsplit⟩ := List.exists_cons_of_ne_nil (Text.split_ne_nil path)
  have hslash : ∀ s ∈ first :: rest, '/' ∉ s.toList := fun s hs => Text.no_slash_of_mem_split (hsplit ▸ hs)
  have hrest : ∀ c ∈ rest.filterMap Component.ofSegment?, Component.IsStep c := by
    intro c hc
    obtain ⟨s, hs, hcs⟩ := List.mem_filterMap.mp hc
    exact isStep_of_ofSegment? (hslash s (List.mem_cons_of_mem first hs)) hcs
  rw [components, hsplit]
  simp only [h, Bool.false_eq_true, if_false]
  split
  · exact ⟨_, hrest, .inr rfl⟩
  · refine ⟨_, fun c hc => ?_, .inl rfl⟩
    rcases List.mem_append.mp hc with hfirst | hc
    · exact isStep_of_ofSegment? (hslash first List.mem_cons_self) (Option.mem_toList.mp hfirst)
    · exact hrest c hc

/-- What is held while a path is normalized, the last step first. -/
def Held (acc : List Component) : Prop :=
  ∃ names : Place, names.Named ∧
    (acc = names.map .name ++ [.root] ∨ acc = names.map .name ++ [.parent, .root])

theorem Held.step {acc : List Component} (h : Held acc) {c : Component} (hc : c.IsStep) :
    Held (normalizeStep acc c) := by
  obtain ⟨names, hnames, hacc⟩ := h
  cases hc with
  | name hs =>
    rename_i s
    refine ⟨s :: names, fun t ht => ?_, ?_⟩
    · rcases List.mem_cons.mp ht with rfl | ht
      · exact hs
      · exact hnames t ht
    · rcases hacc with rfl | rfl
      · exact .inl rfl
      · exact .inr rfl
  | parent =>
    cases names with
    | nil =>
      rcases hacc with rfl | rfl
      · exact ⟨[], .nil, .inr rfl⟩
      · exact ⟨[], .nil, .inl rfl⟩
    | cons s names =>
      have hrest : Place.Named names := hnames.mono (List.subset_cons_self s names)
      rcases hacc with rfl | rfl
      · exact ⟨names, hrest, .inl rfl⟩
      · exact ⟨names, hrest, .inr rfl⟩

theorem Held.foldl {acc steps : List Component} (h : Held acc) (hsteps : ∀ c ∈ steps, Component.IsStep c) :
    Held (steps.foldl normalizeStep acc) := by
  induction steps generalizing acc with
  | nil => exact h
  | cons c steps ih =>
    exact ih (h.step (hsteps c List.mem_cons_self)) fun c' hc' => hsteps c' (List.mem_cons_of_mem c hc')

/-- What a normalized path is put together from. -/
theorem normalize_eq (h : isAbsolute path = true) :
    ∃ names : Place, names.Named ∧
      (normalize path = ofComponents (.root :: names.map .name) ∨
        normalize path = ofComponents (.root :: .parent :: names.map .name)) := by
  obtain ⟨steps, hsteps, hpath⟩ := components_of_isAbsolute h
  have hheld : Held (steps.foldl normalizeStep [.root]) := .foldl ⟨[], .nil, .inl rfl⟩ hsteps
  have hnormal : normalize path = ofComponents (steps.foldl normalizeStep [.root]).reverse := by
    rw [normalize, hpath]
    rfl
  obtain ⟨names, hnames, hacc⟩ := hheld
  refine ⟨names.reverse, fun s hs => hnames s (List.mem_reverse.mp hs), ?_⟩
  rw [hnormal]
  rcases hacc with hacc | hacc
  · left
    rw [hacc, List.reverse_append, ← List.map_reverse]
    rfl
  · right
    rw [hacc, List.reverse_append, ← List.map_reverse]
    rfl

theorem isStep_of_named {names : Place} (h : names.Named) : ∀ c ∈ names.map Component.name, c.IsStep := by
  intro c hc
  obtain ⟨s, hs, rfl⟩ := List.mem_map.mp hc
  exact .name (h s hs)

theorem straight_normalize (h : isAbsolute path = true) : Straight (normalize path) := by
  obtain ⟨names, hnames, hdown | hup⟩ := normalize_eq h
  · refine ⟨names, hnames, .inl ?_⟩
    rw [hdown]
    exact components_ofComponents (isStep_of_named hnames)
  · refine ⟨names, hnames, .inr ?_⟩
    rw [hup]
    exact components_ofComponents (List.forall_mem_cons.mpr ⟨.parent, isStep_of_named hnames⟩)

/-- A normalized path is in plain spelling. -/
theorem tidy_normalize (h : isAbsolute path = true) : tidy (normalize path) = normalize path := by
  obtain ⟨names, hnames, hdown | hup⟩ := normalize_eq h
  · rw [hdown, tidy, components_ofComponents (isStep_of_named hnames)]
  · rw [hup, tidy, components_ofComponents (List.forall_mem_cons.mpr ⟨.parent, isStep_of_named hnames⟩)]

theorem straight_path {p : Place} (hp : p.Named) : Straight p.path :=
  ⟨p, hp, .inl (components_path hp)⟩

/-- A name that is joined to a path stays its last component when the path is normalized. -/
theorem components_normalize_join {s : String} (h : IsName s) (path : String) :
    ∃ cs, components (normalize (join path s)) = cs ++ [.name s] := by
  obtain ⟨cs, hcs⟩ := components_join_name h path
  rw [normalize, hcs, List.foldl_append]
  simp only [List.foldl_cons, List.foldl_nil, normalizeStep, List.reverse_cons, ofComponents_concat]
  exact components_join_name h _

end Path

/-- A name that is joined to a path is the last on the way to the place that is written to. -/
theorem Disk.getLast?_wouldBe_join {s : String} (h : Path.IsName s) (path : String) :
    (wouldBe (Path.join path s)).getLast? = some s := by
  obtain ⟨cs, hcs⟩ := Path.components_normalize_join h path
  rw [wouldBe, hcs, List.filterMap_append]
  simp

end SolutionAtlas
