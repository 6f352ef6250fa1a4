-- SUMMARY: A tree that is cut short shows the first entries of each folder and accounts for all others.
import Mathlib
import SolutionAtlas.Proofs.Render.PlacedLines

/-!
# Trees that are cut short

What a text shows in a folder can be told from the text alone: the first entries of the folder and the number of
the others, or, where the tree is too deep, that there is more. From this every path is accounted for.
-/

namespace SolutionAtlas.FileTree

variable {limit levels : Nat} {paths : List (List String)} {e : Entry}

/-! ## Folders that are shown -/

/-- The paths in a folder, without the folders that lead to it. -/
def within : List String → List (List String) → List (List String)
  | [], paths => paths
  | name :: folder, paths => within folder (below name paths)

/-- The folder is among the entries shown of the folder around it, and so are all folders on the way. -/
def Open (limit : Nat) : Nat → List (List String) → List String → Prop
  | _, _, [] => True
  | 0, _, _ :: _ => False
  | levels + 1, paths, name :: folder =>
    .folder name ∈ (entries paths).take limit ∧ Open limit levels (below name paths) folder

section Folders

variable {name : String} {folder outer : List String}

theorem filterMap_childOf_within (folder : List String) (paths : List (List String)) :
    (within folder paths).filterMap (childOf []) = paths.filterMap (childOf folder) := by
  induction folder generalizing paths with
  | nil => rfl
  | cons name folder ih => rw [within, ih, filterMap_childOf_below]

theorem Named.within (h : Named paths) (folder : List String) : Named (within folder paths) := by
  induction folder generalizing paths with
  | nil => exact h
  | cons name folder ih => exact ih (h.below name)

theorem open_nil : Open limit levels paths [] := by
  cases levels <;> exact trivial

/-- A folder is shown when it is among the entries shown of a folder that is shown. -/
theorem open_concat_iff : Open limit levels paths (outer ++ [name]) ↔
    Open limit levels paths outer ∧ outer.length < levels ∧
      .folder name ∈ (entries (within outer paths)).take limit := by
  induction outer generalizing levels paths with
  | nil =>
    cases levels with
    | zero => simp [Open]
    | succ levels => simp [Open, open_nil, within]
  | cons m outer ih =>
    cases levels with
    | zero => simp [Open]
    | succ levels => simp [Open, ih, within, and_assoc]

theorem rowsIn_drawn_of_open (h : Open limit levels paths folder) :
    rowsIn (drawn limit levels paths) folder = listing limit (levels - folder.length) (within folder paths) := by
  induction folder generalizing levels paths with
  | nil => exact rowsIn_drawn_nil
  | cons name folder ih =>
    cases levels with
    | zero => exact h.elim
    | succ levels =>
      rw [rowsIn_drawn_cons, if_pos h.1, ih h.2, List.length_cons, Nat.add_sub_add_right]
      rfl

theorem rowsIn_drawn_of_not_open (h : ¬ Open limit levels paths folder) :
    rowsIn (drawn limit levels paths) folder = [] := by
  induction folder generalizing levels paths with
  | nil => exact absurd open_nil h
  | cons name folder ih =>
    cases levels with
    | zero => exact rowsIn_drawn_zero name folder
    | succ levels =>
      rw [rowsIn_drawn_cons]
      split
      · rename_i hshown
        exact ih fun hopen => h ⟨hshown, hopen⟩
      · rfl

end Folders

/-! ## Folders that the text shows -/

theorem mem_listing_folder {name : String} :
    .folder name ∈ listing limit levels paths ↔ 0 < levels ∧ .folder name ∈ (entries paths).take limit := by
  cases levels with
  | zero => simp [listing]
  | succ levels => simp [listing]

/-- What is drawn in a folder can be told from the labels. -/
theorem Named.readName_label (h : Named paths) (he : e ∈ listing limit levels paths) :
    readName e.label.toList = e := by
  cases levels with
  | zero =>
    rw [List.mem_singleton.mp he]
    exact readName_depthMarker.1
  | succ levels =>
    rcases List.mem_append.mp he with he | he
    · exact (h.of_mem_entries (List.mem_of_mem_take he)).1
    · obtain ⟨marker, hmarker, rfl⟩ := List.mem_map.mp he
      rw [moreLines] at hmarker
      split at hmarker
      · rw [List.mem_singleton.mp hmarker]
        exact (readName_moreMarker _).1
      · cases hmarker

theorem Named.folder_label_mem (h : Named paths) (name : String) :
    name ++ "/" ∈ (listing limit levels paths).map Entry.label ↔ .folder name ∈ listing limit levels paths := by
  refine ⟨fun hmem => ?_, fun hmem => List.mem_map_of_mem hmem⟩
  obtain ⟨e, he, hlabel⟩ := List.mem_map.mp hmem
  have hread := h.readName_label he
  rw [hlabel, readName_folder] at hread
  exact hread ▸ he

/-- The text has the lines of a tree of some paths. -/
structure Draws (text : String) (limit levels : Nat) (paths : List (List String)) : Prop where
  placedLines_eq : placedLines text = drawn limit levels paths
  named : Named paths

namespace Draws

variable {text : String} {folder outer : List String} {name : String}

theorem shownIn_of_open (h : Draws text limit levels paths) (hopen : Open limit levels paths folder) :
    shownIn text folder = (listing limit (levels - folder.length) (within folder paths)).map Entry.label := by
  rw [shownIn, h.placedLines_eq, rowsIn_drawn_of_open hopen]

theorem shownIn_of_not_open (h : Draws text limit levels paths) (hopen : ¬ Open limit levels paths folder) :
    shownIn text folder = [] := by
  rw [shownIn, h.placedLines_eq, rowsIn_drawn_of_not_open hopen, List.map_nil]

theorem folder_mem_shownIn (h : Draws text limit levels paths) :
    name ++ "/" ∈ shownIn text outer ↔ Open limit levels paths (outer ++ [name]) := by
  rw [open_concat_iff]
  by_cases hopen : Open limit levels paths outer
  · rw [h.shownIn_of_open hopen, (h.named.within outer).folder_label_mem, mem_listing_folder, Nat.sub_pos_iff_lt,
      and_iff_right hopen]
  · rw [h.shownIn_of_not_open hopen]
    exact iff_of_false List.not_mem_nil fun h => hopen h.1

/-- The folders that the text shows are those all of whose surrounding folders show the next one. -/
theorem isShown_iff (h : Draws text limit levels paths) :
    IsShown text folder ↔ Open limit levels paths folder := by
  rcases List.eq_nil_or_concat' folder with rfl | ⟨outer, name, rfl⟩
  · exact iff_of_true (.inl rfl) open_nil
  · rw [← h.folder_mem_shownIn]
    constructor
    · rintro (hnil | ⟨outer', name', heq, hmem⟩)
      · exact absurd hnil (by simp)
      · obtain ⟨rfl, hname⟩ := List.append_inj' heq rfl
        rw [List.singleton_inj.mp hname]
        exact hmem
    · exact fun hmem => .inr ⟨outer, name, rfl, hmem⟩

end Draws

theorem named_keptPaths {o : Options} {xs : List String} (hlines : ∀ x ∈ xs, '\n' ∉ x.toList) :
    Named (keptPaths o xs) :=
  fun _ hp _ hs => no_slash_no_newline_of_mem_pathsOf (fun x hx => hlines x (List.mem_of_mem_filter hx)) hp hs

/-- The lines of a rendered tree show what is drawn. -/
theorem reads_keptPaths {o : Options} {xs : List String} (hlines : ∀ x ∈ xs, '\n' ∉ x.toList) :
    List.Forall₂ Reads (lines (max 1 o.maxEntries) (max 1 o.maxDepth) "" (keptPaths o xs))
      (rowsAt 0 (drawn (max 1 o.maxEntries) (max 1 o.maxDepth) (keptPaths o xs))) :=
  reads_drawn (named_keptPaths hlines) .nil

/-- A tree is rendered to a text with its lines. -/
theorem draws_render {o : Options} {xs : List String} (hlines : ∀ x ∈ xs, '\n' ∉ x.toList) :
    Draws (render xs o) (max 1 o.maxEntries) (max 1 o.maxDepth) (keptPaths o xs) where
  named := named_keptPaths hlines
  placedLines_eq := by
    rcases eq_or_ne (keptPaths o xs) [] with hempty | hne
    · have hread : ["(no files)"].filterMap (readLine ·.toList) = [] := by decide +kernel
      obtain ⟨levels, hlevels⟩ := Nat.exists_eq_add_of_le' (le_max_left 1 o.maxDepth)
      rw [placedLines, fenced_render_of_eq_nil hempty, hread, hempty, hlevels, drawn_nil, placed]
    · rw [placedLines, fenced_render_of_ne hne (reads_keptPaths hlines), filterMap_readLine (reads_keptPaths hlines),
        placed_rowsAt_drawn]

/-- Every line of a tree with paths is the line of an entry. -/
theorem readLine_of_mem_fenced_render {o : Options} {xs : List String} (hlines : ∀ x ∈ xs, '\n' ∉ x.toList)
    (hne : keptPaths o xs ≠ []) {line : String} (hline : line ∈ fenced (render xs o)) :
    ∃ row, readLine line.toList = some row := by
  rw [fenced_render_of_ne hne (reads_keptPaths hlines)] at hline
  obtain ⟨row, hrow⟩ := exists_reads (reads_keptPaths hlines) hline
  exact ⟨row, hrow.readLine_eq⟩

/-! ## Children -/

/-- The order of the entries of a folder: folders come first, and each group is in the order of the names. -/
def Entry.Precedes : Entry → Entry → Prop
  | .folder a, .folder b => nameKey a < nameKey b
  | .folder _, .file _ => True
  | .file _, .folder _ => False
  | .file a, .file b => nameKey a < nameKey b

/-- What some paths lead to in a folder, in order and each once. -/
structure ListsChildren (paths : List (List String)) (folder : List String) (es : List Entry) : Prop where
  mem_iff : ∀ e, e ∈ es ↔ ∃ p ∈ paths, childOf folder p = some e
  ordered : es.Pairwise Entry.Precedes

theorem Entry.Precedes.asymm {a b : Entry} (h : a.Precedes b) : ¬ b.Precedes a := by
  cases a <;> cases b
  · exact lt_asymm h
  · exact id
  · exact h.elim
  · exact lt_asymm h

theorem ListsChildren.nodup {folder : List String} {es : List Entry} (h : ListsChildren paths folder es) :
    es.Nodup :=
  h.ordered.imp fun hab heq => (heq ▸ hab).asymm (heq ▸ hab)

/-- The children of a folder are told by the paths. -/
theorem ListsChildren.eq {folder : List String} {es es' : List Entry} (h : ListsChildren paths folder es)
    (h' : ListsChildren paths folder es') : es = es' := by
  have hperm : es.Perm es' :=
    (List.perm_ext_iff_of_nodup h.nodup h'.nodup).mpr fun e => (h.mem_iff e).trans (h'.mem_iff e).symm
  exact hperm.eq_of_pairwise (fun a b _ _ hab hba => absurd hba hab.asymm) h.ordered h'.ordered

theorem pairwise_entries (paths : List (List String)) : (entries paths).Pairwise Entry.Precedes := by
  rw [entries, List.pairwise_append]
  refine ⟨(pairwise_sortedNames _).map _ fun _ _ h => h, (pairwise_sortedNames _).map _ fun _ _ h => h, ?_⟩
  intro a ha b hb
  obtain ⟨n, -, rfl⟩ := List.mem_map.mp ha
  obtain ⟨m, -, rfl⟩ := List.mem_map.mp hb
  exact trivial

theorem listsChildren_entries (folder : List String) (paths : List (List String)) :
    ListsChildren paths folder (entries (within folder paths)) where
  mem_iff e := by
    rw [mem_entries, ← List.mem_filterMap, filterMap_childOf_within, List.mem_filterMap]
  ordered := pairwise_entries _

/-! ## Accounts -/

/-- The folder is the deepest one on the way to the path that the text shows. -/
structure IsDeepest (text : String) (path folder : List String) : Prop where
  on_way : folder <+: path.dropLast
  shown : IsShown text folder
  deepest : ∀ outer, outer <+: path.dropLast → IsShown text outer → outer <+: folder

/-- What the deepest folder on the way to a path tells of it: the path stands in it on one line, or among the
entries that it does not show and gives the number of, or under the marker of a tree that is too deep. -/
inductive Accounted (text : String) (limit depth : Nat) (children : List Entry) (path folder : List String) : Prop
  | printed (name : String) (path_eq : path = folder ++ [name]) (level : folder.length < depth)
      (once : ((shownIn text folder).take limit).count name = 1)
  | counted (e : Entry) (child : childOf folder path = some e) (level : folder.length < depth)
      (hidden : e ∈ children.drop limit)
      (told : (shownIn text folder).drop limit = [moreMarker (children.drop limit).length])
  | under (level : depth ≤ folder.length) (told : shownIn text folder = [depthMarker])

/-- A text with a tree of some paths tells of everything that it leaves out. -/
structure LeavesNothingOut (text : String) (limit depth : Nat) (paths : List (List String))
    (children : List String → List Entry) : Prop where
  all_read : paths ≠ [] → ∀ line ∈ fenced text, ∃ row, readLine line.toList = some row
  children_of : ∀ folder, ListsChildren paths folder (children folder)
  shown_within : ∀ folder, IsShown text folder → folder.length < depth →
    shownIn text folder =
      ((children folder).take limit).map Entry.label ++ moreLines ((children folder).length - limit)
  shown_deeper : ∀ folder, IsShown text folder → depth ≤ folder.length → shownIn text folder = [depthMarker]
  not_shown : ∀ folder, ¬ IsShown text folder → shownIn text folder = []
  accounted : ∀ path ∈ paths, ∃ folder,
    IsDeepest text path folder ∧ Accounted text limit depth (children folder) path folder

theorem exists_longest_prefix {α : Type} {P : List α → Prop} (hnil : P []) (xs : List α) :
    ∃ ys, ys <+: xs ∧ P ys ∧ ∀ zs, zs <+: xs → P zs → zs <+: ys := by
  induction xs using List.reverseRecOn with
  | nil => exact ⟨[], List.prefix_rfl, hnil, fun _ h _ => h⟩
  | append_singleton xs x ih =>
    by_cases h : P (xs ++ [x])
    · exact ⟨xs ++ [x], List.prefix_rfl, h, fun _ hzs _ => hzs⟩
    · obtain ⟨ys, hys, hP, hlongest⟩ := ih
      refine ⟨ys, hys.trans (List.prefix_append _ _), hP, fun zs hzs hPzs => ?_⟩
      rcases List.prefix_concat_iff.mp hzs with rfl | hzs
      · exact absurd hPzs h
      · exact hlongest zs hzs hPzs

theorem exists_isDeepest (text : String) (path : List String) : ∃ folder, IsDeepest text path folder := by
  obtain ⟨folder, hway, hshown, hdeepest⟩ := exists_longest_prefix (P := IsShown text) (.inl rfl) path.dropLast
  exact ⟨folder, hway, hshown, hdeepest⟩

theorem childOf_append (folder rest : List String) : childOf folder (folder ++ rest) = childOf [] rest := by
  induction folder with
  | nil => rfl
  | cons name folder ih => rw [List.cons_append, childOf, if_pos rfl, ih]

/-- A folder on the way to a path has a child that leads there. -/
theorem exists_childOf {path folder : List String} (hne : path ≠ []) (h : folder <+: path.dropLast) :
    (∃ name, path = folder ++ [name] ∧ childOf folder path = some (.file name)) ∨
      ∃ name, folder ++ [name] <+: path.dropLast ∧ childOf folder path = some (.folder name) := by
  obtain ⟨init, last, rfl⟩ := (List.eq_nil_or_concat' path).resolve_left hne
  rw [List.dropLast_concat] at h ⊢
  obtain ⟨rest, rfl⟩ := h
  cases rest with
  | nil =>
    rw [List.append_nil]
    exact .inl ⟨last, rfl, childOf_append folder [last]⟩
  | cons name rest =>
    refine .inr ⟨name, ⟨rest, by simp⟩, ?_⟩
    rw [List.append_assoc, childOf_append]
    cases rest <;> rfl

theorem take_append_moreLines (limit : Nat) (es : List Entry) :
    ((es.take limit).map Entry.label ++ moreLines (es.length - limit)).take limit =
      (es.take limit).map Entry.label := by
  rw [moreLines]
  split
  · have hlength : ((es.take limit).map Entry.label).length = limit := by
      rw [List.length_map, List.length_take]
      omega
    exact List.take_left' hlength
  · rw [List.append_nil, List.take_of_length_le]
    rw [List.length_map]
    exact List.length_take_le limit es

theorem drop_append_moreLines {limit : Nat} {es : List Entry} (h : es.drop limit ≠ []) :
    ((es.take limit).map Entry.label ++ moreLines (es.length - limit)).drop limit =
      [moreMarker (es.drop limit).length] := by
  have hhidden : 0 < (es.drop limit).length := List.length_pos_iff.mpr h
  rw [List.length_drop] at hhidden ⊢
  have hlength : ((es.take limit).map Entry.label).length = limit := by
    rw [List.length_map, List.length_take]
    omega
  rw [moreLines, if_pos hhidden]
  exact List.drop_left' hlength

theorem Named.nodup_labels (h : Named paths) (limit : Nat) :
    (((entries paths).take limit).map Entry.label).Nodup := by
  refine ((List.take_sublist _ _).nodup (nodup_entries paths)).map_on fun a ha b hb hlabel => ?_
  rw [← (h.of_mem_entries (List.mem_of_mem_take ha)).1, hlabel, (h.of_mem_entries (List.mem_of_mem_take hb)).1]

namespace Draws

variable {text : String} {folder path : List String}

theorem shownIn_within (h : Draws text limit levels paths) (hshown : IsShown text folder)
    (hlevel : folder.length < levels) :
    shownIn text folder = ((entries (within folder paths)).take limit).map Entry.label ++
      moreLines ((entries (within folder paths)).length - limit) := by
  obtain ⟨more, hmore⟩ := Nat.exists_eq_add_of_lt hlevel
  have hlevels : levels - folder.length = more + 1 := by omega
  rw [h.shownIn_of_open (h.isShown_iff.mp hshown), hlevels, listing, List.map_append, List.map_map]
  exact congrArg (_ ++ ·) (List.map_id _)

theorem shownIn_deeper (h : Draws text limit levels paths) (hshown : IsShown text folder)
    (hlevel : levels ≤ folder.length) : shownIn text folder = [depthMarker] := by
  rw [h.shownIn_of_open (h.isShown_iff.mp hshown), Nat.sub_eq_zero_of_le hlevel]
  rfl

/-- The deepest folder that is shown on the way to a path tells of it. -/
theorem accounted (h : Draws text limit levels paths) (hpath : path ∈ paths) (hne : path ≠ [])
    (hdeepest : IsDeepest text path folder) :
    Accounted text limit levels (entries (within folder paths)) path folder := by
  rcases Nat.lt_or_ge folder.length levels with hlevel | hlevel
  · have hshown := h.shownIn_within hdeepest.shown hlevel
    have hchild {e : Entry} (he : childOf folder path = some e) :
        e ∈ (entries (within folder paths)).take limit ∨ e ∈ (entries (within folder paths)).drop limit := by
      rw [← List.mem_append, List.take_append_drop]
      exact ((listsChildren_entries folder paths).mem_iff e).mpr ⟨path, hpath, he⟩
    have hcounted {e : Entry} (he : childOf folder path = some e)
        (hdrop : e ∈ (entries (within folder paths)).drop limit) :
        Accounted text limit levels (entries (within folder paths)) path folder := by
      refine .counted e he hlevel hdrop ?_
      rw [hshown, drop_append_moreLines (List.ne_nil_of_mem hdrop)]
    rcases exists_childOf hne hdeepest.on_way with ⟨name, hname, he⟩ | ⟨name, hname, he⟩
    · rcases hchild he with htake | hdrop
      · refine .printed name hname hlevel ?_
        rw [hshown, take_append_moreLines]
        exact List.count_eq_one_of_mem ((h.named.within folder).nodup_labels limit) (List.mem_map_of_mem htake)
      · exact hcounted he hdrop
    · rcases hchild he with htake | hdrop
      · -- The next folder would be shown, and it is deeper.
        have hopen : Open limit levels paths (folder ++ [name]) :=
          open_concat_iff.mpr ⟨h.isShown_iff.mp hdeepest.shown, hlevel, htake⟩
        have hlength := (hdeepest.deepest _ hname (h.isShown_iff.mpr hopen)).length_le
        rw [List.length_append, List.length_singleton] at hlength
        omega
      · exact hcounted he hdrop
  · exact .under hlevel (h.shownIn_deeper hdeepest.shown hlevel)

end Draws

/-- A tree that is cut short leaves nothing out without telling: a folder that is shown within the depth lists its
first children and the number of the others, one that is too deep says so, and every path is printed, counted or
under a marker. -/
theorem leavesNothingOut_render {o : Options} {xs : List String} (hlines : ∀ x ∈ xs, '\n' ∉ x.toList) :
    ∃ children,
      LeavesNothingOut (render xs o) (max 1 o.maxEntries) (max 1 o.maxDepth) (keptPaths o xs) children := by
  have hdraws := draws_render (o := o) hlines
  refine ⟨fun folder => entries (within folder (keptPaths o xs)), ?_⟩
  exact
    { all_read := fun hne _ => readLine_of_mem_fenced_render hlines hne
      children_of := fun folder => listsChildren_entries folder _
      shown_within := fun _ => hdraws.shownIn_within
      shown_deeper := fun _ => hdraws.shownIn_deeper
      not_shown := fun _ hshown => hdraws.shownIn_of_not_open (mt hdraws.isShown_iff.mpr hshown)
      accounted := fun path hpath => by
        have hne : path ≠ [] := by
          rintro rfl
          simpa using (List.mem_filter.mp hpath).2
        obtain ⟨folder, hdeepest⟩ := exists_isDeepest (render xs o) path
        exact ⟨folder, hdeepest, hdraws.accounted hpath hne hdeepest⟩ }

namespace Example

/-- Two folders and a file, with a file two folders deep. -/
def crowded : List String :=
  ["b.cs", "Docs/readme.md", "api/v1/User.cs"]

/-- One level and one entry of it. -/
def cut : Options :=
  { maxDepth := 1, maxEntries := 1 }

end Example

theorem leavesNothingOut_render_crowded :
    (∀ x ∈ Example.crowded, '\n' ∉ x.toList) ∧
      shownIn (render Example.crowded Example.cut) [] = ["api/", "... (2 more items)"] ∧
      shownIn (render Example.crowded Example.cut) ["api"] = [depthMarker] ∧
      ∃ folder, IsDeepest (render Example.crowded Example.cut) ["api", "v1", "User.cs"] folder := by
  have hlines : ∀ x ∈ Example.crowded, '\n' ∉ x.toList := by decide +kernel
  obtain ⟨children, h⟩ : ∃ children, LeavesNothingOut (render Example.crowded Example.cut) 1 1
      (keptPaths Example.cut Example.crowded) children := leavesNothingOut_render hlines
  have hpaths : keptPaths Example.cut Example.crowded =
      [["b.cs"], ["Docs", "readme.md"], ["api", "v1", "User.cs"]] := by decide +kernel
  rw [hpaths] at h
  have hapi : nameKey "api" < nameKey "Docs" := Prod.Lex.left _ _ (by decide +kernel)
  have hchildren : children [] = [.folder "api", .folder "Docs", .file "b.cs"] := by
    refine (h.children_of []).eq ⟨fun e => ?_, ?_⟩
    · simp only [List.mem_cons, List.not_mem_nil, or_false, exists_eq_or_imp, exists_eq_left, childOf,
        Option.some.injEq]
      constructor <;> rintro (rfl | rfl | rfl) <;> simp
    · simp [Entry.Precedes, hapi]
  have htop : shownIn (render Example.crowded Example.cut) [] = ["api/", "... (2 more items)"] := by
    rw [h.shown_within [] (.inl rfl) Nat.one_pos, hchildren]
    decide +kernel
  have hdeep : IsShown (render Example.crowded Example.cut) ["api"] :=
    .inr ⟨[], "api", rfl, htop ▸ List.mem_cons_self⟩
  obtain ⟨folder, hdeepest, -⟩ := h.accounted ["api", "v1", "User.cs"] (by decide)
  exact ⟨hlines, htop, h.shown_deeper _ hdeep le_rfl, folder, hdeepest⟩

end SolutionAtlas.FileTree
