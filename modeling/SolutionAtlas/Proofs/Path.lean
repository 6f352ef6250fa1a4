-- SUMMARY: The paths of places: how they are taken apart and put together.
import Mathlib
import SolutionAtlas.Disk.Basic
import SolutionAtlas.Proofs.Text.Occurrence

/-!
# Paths of places

The path of a place whose names are proper is in plain spelling: taking it apart gives the names
back, its parent is the path of the place above, and joining names to it gives the path below.
-/

namespace SolutionAtlas

/-! ## Names -/

/-- A segment that names an entry of a folder. -/
structure Path.IsName (s : String) : Prop where
  not_filler : Path.isFiller s = false
  not_parent : s ≠ ".."
  no_slash : '/' ∉ s.toList

instance : DecidablePred Path.IsName := fun s =>
  decidable_of_iff (Path.isFiller s = false ∧ s ≠ ".." ∧ '/' ∉ s.toList)
    ⟨fun ⟨hfiller, hparent, hslash⟩ => ⟨hfiller, hparent, hslash⟩,
      fun ⟨hfiller, hparent, hslash⟩ => ⟨hfiller, hparent, hslash⟩⟩

/-- All names on the way to a place are proper. -/
def Place.Named (p : Place) : Prop :=
  ∀ s ∈ p, Path.IsName s

instance (p : Place) : Decidable p.Named :=
  List.decidableBAll Path.IsName p

namespace Place.Named

variable {p q : Place}

@[simp] theorem nil : Place.Named [] := by
  intro s hs
  cases hs

theorem append (hp : Place.Named p) (hq : Place.Named q) : Place.Named (p ++ q) := by
  intro s hs
  exact (List.mem_append.mp hs).elim (hp s) (hq s)

theorem mono (hp : Place.Named p) (h : q ⊆ p) : Place.Named q :=
  fun s hs => hp s (h hs)

theorem dropLast (hp : Place.Named p) : Place.Named p.dropLast :=
  hp.mono (List.dropLast_subset p)

end Place.Named

/-! ## Splitting -/

namespace Text

theorem splitChars_eq_splitOnP (p : Char → Bool) (s : List Char) : splitChars p s = s.splitOnP p := by
  induction s with
  | nil => rfl
  | cons c s ih =>
    rw [splitChars, List.splitOnP_cons_eq_if_modifyHead, ih]
    split
    · rfl
    · cases hpieces : s.splitOnP p with
      | nil => exact absurd hpieces (List.splitOnP_ne_nil p s)
      | cons piece rest => rfl

theorem subset_of_mem_splitChars {p : Char → Bool} {s piece : List Char}
    (h : piece ∈ splitChars p s) : piece ⊆ s := by
  induction s generalizing piece with
  | nil =>
    rw [List.mem_singleton.mp h]
    exact List.nil_subset []
  | cons c s ih =>
    rw [splitChars] at h
    split at h
    · rcases List.mem_cons.mp h with rfl | h
      · exact List.nil_subset _
      · exact List.subset_cons_of_subset c (ih h)
    · split at h
      · rename_i first rest hpieces
        rw [hpieces] at ih
        rcases List.mem_cons.mp h with rfl | h
        · exact List.cons_subset_cons c (ih List.mem_cons_self)
        · exact List.subset_cons_of_subset c (ih (List.mem_cons_of_mem first h))
      · rw [List.mem_singleton.mp h]
        simp

theorem split_append_singleton (c : Char) (a b : String) :
    split c (a ++ String.singleton c ++ b) = split c a ++ split c b := by
  have hpieces := List.splitOnP_append_cons a.toList b.toList (p := (· == c)) (beq_self_eq_true c)
  simp [split, splitChars_eq_splitOnP, hpieces]

theorem split_append (a b : String) : split '/' (a ++ "/" ++ b) = split '/' a ++ split '/' b :=
  split_append_singleton '/' a b

theorem split_slash_append (s : String) : split '/' ("/" ++ s) = "" :: split '/' s :=
  split_append "" s

theorem split_intercalate {p : List String} (hp : Place.Named p) (hne : p ≠ []) :
    split '/' ("/".intercalate p) = p := by
  have hpieces : (['/'].intercalate (p.map String.toList)).splitOn '/' = p.map String.toList := by
    refine List.splitOn_intercalate _ ?_ (by simpa using hne)
    intro l hl
    obtain ⟨s, hs, rfl⟩ := List.mem_map.mp hl
    exact (hp s hs).no_slash
  rw [split, splitChars_eq_splitOnP, String.toList_intercalate]
  change List.map String.ofList ((['/'].intercalate _).splitOn '/') = p
  rw [hpieces, List.map_map]
  exact (List.map_congr_left fun s _ => String.ofList_toList).trans (List.map_id p)

theorem startsWith_slash {s : String} : startsWith s "/" = true ↔ ∃ rest, s.toList = '/' :: rest := by
  rw [startsWith_iff]
  exact exists_congr fun _ => eq_comm

theorem endsWith_slash {s : String} : endsWith s "/" = true ↔ ∃ front, s.toList = front ++ ['/'] := by
  rw [endsWith_iff]
  exact exists_congr fun _ => eq_comm

end Text

namespace Path

variable {p q : Place}

/-! ## Taking apart -/

theorem path_eq_ofSegments (hne : p ≠ []) : Place.path p = ofSegments ("" :: p) := by
  rw [Place.path, ofSegments, String.intercalate_cons_of_ne_nil hne]
  rfl

theorem split_path (hp : p.Named) (hne : p ≠ []) : Text.split '/' (Place.path p) = "" :: p := by
  rw [Place.path, Text.split_slash_append, Text.split_intercalate hp hne]

@[simp] theorem isAbsolute_path (p : Place) : isAbsolute (Place.path p) = true := by
  refine Text.startsWith_slash.mpr ⟨("/".intercalate p).toList, ?_⟩
  rw [Place.path, String.toList_append]
  rfl

theorem ofSegment?_of_isName {s : String} (h : IsName s) : Component.ofSegment? s = some (.name s) := by
  have hfiller : (s.isEmpty || s == ".") = false := h.not_filler
  simp [Component.ofSegment?, hfiller, h.not_parent]

theorem filterMap_ofSegment? (hp : p.Named) :
    p.filterMap Component.ofSegment? = p.map Component.name := by
  rw [← List.filterMap_eq_map]
  exact List.filterMap_congr fun s hs => ofSegment?_of_isName (hp s hs)

theorem components_path (hp : p.Named) : components (Place.path p) = .root :: p.map .name := by
  rcases eq_or_ne p [] with rfl | hne
  · decide
  · simp [components, split_path hp hne, filterMap_ofSegment? hp]

theorem dropFillersAtEnd_eq (hp : p.Named) : dropFillersAtEnd p = p := by
  rw [dropFillersAtEnd, List.dropWhile_eq_self_iff.mpr, List.reverse_reverse]
  intro hlen
  rw [List.getElem_reverse]
  simp [(hp _ (List.getElem_mem _)).not_filler]

theorem trimEnd_path (hp : p.Named) (hne : p ≠ []) : trimEnd (Place.path p) = Place.path p := by
  have hkept := dropFillersAtEnd_eq hp
  rw [trimEnd, split_path hp hne]
  dsimp only
  cases p with
  | nil => exact absurd rfl hne
  | cons s rest =>
    rw [hkept]
    exact (path_eq_ofSegments hne).symm

/-- The parent of the path of a place is the path of the place above. -/
theorem parent?_path (hp : p.Named) (hne : p ≠ []) :
    parent? (Place.path p) = some (Place.path p.dropLast) := by
  have hlast : (components (Place.path p)).getLast? = some (.name (p.getLast hne)) := by
    rw [components_path hp, List.getLast?_cons, List.getLast?_map, List.getLast?_eq_some_getLast hne]
    rfl
  rw [parent?, hlast]
  dsimp only
  rw [trimEnd_path hp hne, split_path hp hne]
  dsimp only
  cases habove : p.dropLast with
  | nil =>
    dsimp only
    rw [if_neg (by simpa using hne), if_pos (isAbsolute_path p)]
    rfl
  | cons s rest =>
    have hne' : s :: rest ≠ [] := List.cons_ne_nil s rest
    dsimp only
    rw [← path_eq_ofSegments hne', trimEnd_path (habove ▸ hp.dropLast) hne']

/-! ## Putting together -/

theorem toList_ne_nil {s : String} (h : IsName s) : s.toList ≠ [] := by
  intro hnil
  have hempty : s = "" := String.toList_eq_nil_iff.mp hnil
  subst hempty
  exact absurd h.not_filler (by decide)

theorem not_isAbsolute_intercalate (hq : q.Named) (hne : q ≠ []) :
    isAbsolute ("/".intercalate q) = false := by
  rw [Bool.eq_false_iff]
  intro habs
  obtain ⟨rest, hrest⟩ := Text.startsWith_slash.mp habs
  cases q with
  | nil => exact hne rfl
  | cons s names =>
    have hs : IsName s := hq s List.mem_cons_self
    obtain ⟨c, cs, hcs⟩ := List.exists_cons_of_ne_nil (toList_ne_nil hs)
    have hc : c = '/' := by
      cases names with
      | nil =>
        rw [String.intercalate_singleton, hcs] at hrest
        exact (List.cons.inj hrest).1
      | cons t names =>
        rw [String.intercalate_cons_cons, String.toList_append, String.toList_append, hcs] at hrest
        exact (List.cons.inj hrest).1
    exact hs.no_slash (by simp [hcs, hc])

theorem toList_path_concat (p : Place) (s : String) :
    ∃ lead, (Place.path (p ++ [s])).toList = lead ++ s.toList := by
  rcases eq_or_ne p [] with rfl | hne
  · exact ⟨['/'], by simp [Place.path]⟩
  · refine ⟨(Place.path p ++ "/").toList, ?_⟩
    rw [Place.path, String.intercalate_append_of_ne_nil hne (List.cons_ne_nil s [])]
    simp [Place.path]

theorem not_endsWith_path (hp : p.Named) (hne : p ≠ []) :
    Text.endsWith (Place.path p) "/" = false := by
  rw [Bool.eq_false_iff]
  intro hends
  obtain ⟨front, hfront⟩ := Text.endsWith_slash.mp hends
  obtain ⟨q, s, rfl⟩ := List.eq_nil_or_concat p |>.resolve_left hne
  have hs : IsName s := hp s (by simp)
  obtain ⟨lead, hlead⟩ := toList_path_concat q s
  rw [List.concat_eq_append, hlead] at hfront
  have hlast := congrArg List.getLast? hfront
  rw [List.getLast?_append_of_ne_nil _ (toList_ne_nil hs), List.getLast?_concat] at hlast
  exact hs.no_slash (List.mem_of_getLast? hlast)

theorem join_path (hp : p.Named) (hq : q.Named) (hne : q ≠ []) :
    join (Place.path p) ("/".intercalate q) = Place.path (p ++ q) := by
  rw [join, if_neg (by simp [not_isAbsolute_intercalate hq hne])]
  rcases eq_or_ne p [] with rfl | hpne
  · rfl
  · have hfilled : (Place.path p).isEmpty = false := by
      rw [Place.path, Bool.eq_false_iff, Ne, String.isEmpty_iff]
      intro hempty
      have := congrArg String.toList hempty
      simp at this
    rw [if_neg (by simp [hfilled, not_endsWith_path hp hpne]), Place.path, Place.path,
      String.intercalate_append_of_ne_nil hpne hne]
    simp [String.append_assoc]

theorem foldl_join_path (hp : p.Named) (hq : q.Named) :
    (q.map Component.name).foldl (fun acc c => join acc c.text) (Place.path p) =
      Place.path (p ++ q) := by
  induction q generalizing p with
  | nil => rw [List.append_nil]; rfl
  | cons s q ih =>
    have hs : Place.Named [s] := hq.mono (by simp)
    have hstep : join (Place.path p) s = Place.path (p ++ [s]) := by
      have h := join_path hp hs (List.cons_ne_nil s [])
      rwa [String.intercalate_singleton] at h
    rw [List.map_cons, List.foldl_cons]
    change List.foldl _ (join (Place.path p) s) _ = _
    rw [hstep, ih (hp.append hs) (hq.mono (List.subset_cons_self s q)), List.append_assoc]
    rfl

/-- The path of a place is in plain spelling. -/
theorem tidy_path (hp : p.Named) : tidy (Place.path p) = Place.path p := by
  rw [tidy, components_path hp, ofComponents, List.foldl_cons]
  exact foldl_join_path .nil hp

end Path

end SolutionAtlas
