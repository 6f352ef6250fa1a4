-- SUMMARY: The lines of a drawn tree, read back each with the folder that it stands in.
import Mathlib
import SolutionAtlas.Proofs.Render.FileTree

/-!
# Lines of trees in their folders

A line of a tree stands in the folders that are open above it. Reading a text from top to bottom puts each line
into its folder, and gives back what was drawn there: the entries of a folder up to a limit, and what tells of the
others.
-/

namespace SolutionAtlas.FileTree

/-! ## Reading -/

/-- What stands on the line of an entry, behind the branch. -/
def Entry.label : Entry → String
  | .folder name => name ++ "/"
  | .file name => name

/-- The lines with the folders that they stand in. `opened` are the folders around the line above. A line that
is no folder counts as a file. -/
def placed : List String → List (Nat × Entry) → List (List String × Entry)
  | _, [] => []
  | opened, (depth, .folder name) :: rows =>
    (opened.take depth, .folder name) :: placed (opened.take depth ++ [name]) rows
  | opened, (depth, .file name) :: rows => (opened.take depth, .file name) :: placed opened rows

/-- What some lines show in a folder. -/
def rowsIn (rows : List (List String × Entry)) (folder : List String) : List Entry :=
  (rows.filter (·.1 = folder)).map (·.2)

/-- The lines of the tree in a text, each with the folder that it stands in. -/
def placedLines (text : String) : List (List String × Entry) :=
  placed [] ((fenced text).filterMap (readLine ·.toList))

/-- What a text with a tree shows in a folder, line by line. -/
def shownIn (text : String) (folder : List String) : List String :=
  (rowsIn (placedLines text) folder).map Entry.label

/-- The text shows the folder: it is the whole tree, or stands on a line in the folder around it. -/
def IsShown (text : String) (folder : List String) : Prop :=
  folder = [] ∨ ∃ outer name, folder = outer ++ [name] ∧ name ++ "/" ∈ shownIn text outer

/-! ## What is drawn -/

/-- What stands behind the entries of a folder that hides some. -/
def moreMarker (hidden : Nat) : String :=
  "... (" ++ toString hidden ++ " more items)"

/-- The lines that tell how many entries are hidden, if any are. -/
def moreLines (hidden : Nat) : List String :=
  if 0 < hidden then [moreMarker hidden] else []

/-- What is drawn in a folder that holds some paths. -/
def listing (limit : Nat) : Nat → List (List String) → List Entry
  | 0, _ => [.file depthMarker]
  | _ + 1, paths => (entries paths).take limit ++ (moreLines ((entries paths).length - limit)).map .file

/-- Lines that stand in a folder of this name. -/
def inside (name : String) (rows : List (List String × Entry)) : List (List String × Entry) :=
  rows.map fun row => (name :: row.1, row.2)

/-- The line of an entry, and what is drawn in it. -/
def withInner (inner : String → List (List String × Entry)) (e : Entry) : List (List String × Entry) :=
  ([], e) ::
    match e with
    | .file _ => []
    | .folder name => inside name (inner name)

/-- What is drawn of a folder and those in it, each line with the folder that it stands in. -/
def drawn (limit : Nat) : Nat → List (List String) → List (List String × Entry)
  | 0, _ => [([], .file depthMarker)]
  | levels + 1, paths =>
    ((entries paths).take limit).flatMap (withInner fun name => drawn limit levels (below name paths)) ++
      (moreLines ((entries paths).length - limit)).map fun marker => ([], .file marker)

theorem drawn_nil (limit levels : Nat) : drawn limit (levels + 1) [] = [] := by
  simp [drawn, moreLines]

/-- The names in some paths can be read back. -/
def Named (paths : List (List String)) : Prop :=
  ∀ p ∈ paths, ∀ s ∈ p, '/' ∉ s.toList ∧ '\n' ∉ s.toList

variable {limit levels : Nat} {paths : List (List String)} {e : Entry}

theorem Named.below (h : Named paths) (name : String) : Named (below name paths) :=
  fun _ hp s hs => h _ (mem_below.mp hp).2 s (List.mem_cons_of_mem name hs)

theorem Named.of_mem_entries (h : Named paths) (he : e ∈ entries paths) :
    readName e.label.toList = e ∧ '\n' ∉ e.label.toList := by
  obtain ⟨p, hp, hpe⟩ := mem_entries.mp he
  cases e with
  | file name =>
    obtain rfl := childOf_eq_file.mp hpe
    have hname := h _ hp name List.mem_cons_self
    exact ⟨readName_file hname.1, hname.2⟩
  | folder name =>
    obtain ⟨s, rest, rfl⟩ := childOf_eq_folder.mp hpe
    have hname := h _ hp name List.mem_cons_self
    refine ⟨readName_folder name, ?_⟩
    rw [Entry.label, String.toList_append, List.mem_append, not_or]
    exact ⟨hname.2, by decide⟩

theorem readName_moreMarker (hidden : Nat) :
    readName (moreMarker hidden).toList = .file (moreMarker hidden) ∧ '\n' ∉ (moreMarker hidden).toList := by
  have hchars : (moreMarker hidden).toList =
      "... (".toList ++ Nat.toDigits 10 hidden ++ " more items)".toList := by
    rw [moreMarker, Nat.toString_eq_ofList_toDigits]
    simp only [String.toList_append, String.toList_ofList]
  have hlast : (moreMarker hidden).toList.getLast? = some ')' := by
    rw [hchars, List.getLast?_append]
    rfl
  have hdigits : '\n' ∉ Nat.toDigits 10 hidden := fun h =>
    absurd (Nat.isDigit_of_mem_toDigits (by decide) (by decide) h) (by decide)
  constructor
  · rw [readName, hlast, if_neg (by decide), String.ofList_toList]
  · rw [hchars, List.mem_append, List.mem_append, not_or, not_or]
    exact ⟨⟨by decide, hdigits⟩, by decide⟩

theorem readName_depthMarker :
    readName depthMarker.toList = .file depthMarker ∧ '\n' ∉ depthMarker.toList := by
  decide +kernel

/-! ## Reading what is drawn -/

/-- The lines with the number of folders around them, where so many are around all of them. -/
def rowsAt (depth : Nat) (rows : List (List String × Entry)) : List (Nat × Entry) :=
  rows.map fun row => (depth + row.1.length, row.2)

theorem rowsAt_append (depth : Nat) (rows rows' : List (List String × Entry)) :
    rowsAt depth (rows ++ rows') = rowsAt depth rows ++ rowsAt depth rows' :=
  List.map_append

theorem rowsAt_inside (depth : Nat) (name : String) (rows : List (List String × Entry)) :
    rowsAt depth (inside name rows) = rowsAt (depth + 1) rows := by
  rw [rowsAt, inside, List.map_map]
  refine List.map_congr_left fun row _ => ?_
  rw [Function.comp, List.length_cons, Nat.add_right_comm, Nat.add_assoc]

/-- The lines of a folder show what is drawn of it, under so many folders. -/
theorem reads_drawn {indent : String} {depth : Nat} (h : Named paths) (hindent : Indents indent depth) :
    List.Forall₂ Reads (lines limit levels indent paths) (rowsAt depth (drawn limit levels paths)) := by
  induction levels generalizing paths indent depth with
  | zero =>
    have hline := hindent.reads true readName_depthMarker.2
    rw [readName_depthMarker.1] at hline
    exact .cons hline .nil
  | succ levels ih =>
    simp only [lines, drawn, rowsAt, List.map_append, List.map_flatMap]
    refine List.rel_append ?_ ?_
    · conv => arg 3; rw [← List.zipIdx_map_fst 0 ((entries paths).take limit), List.flatMap_map]
      refine forall₂_flatMap ?_
      rintro ⟨e, i⟩ hx
      have he : e ∈ entries paths := List.mem_of_mem_take (List.fst_mem_of_mem_zipIdx hx)
      obtain ⟨hread, hlabel⟩ := h.of_mem_entries he
      dsimp only
      generalize (i + 1 == _) = last
      have hline := hindent.reads last hlabel
      rw [hread] at hline
      cases e with
      | file name => exact .cons hline .nil
      | folder name =>
        have hinner := ih (h.below name) (hindent.step last)
        rw [← rowsAt_inside] at hinner
        rw [Entry.label, ← String.append_assoc] at hline
        exact .cons hline hinner
    · rw [moreLines]
      split
      · obtain ⟨hread, hlabel⟩ := readName_moreMarker ((entries paths).length - limit)
        have hline := hindent.reads true hlabel
        rw [hread] at hline
        simp only [moreMarker, ← String.append_assoc] at hline ⊢
        exact .cons hline .nil
      · exact .nil

/-- Reading the lines within some folders puts each into its folder, and leaves these folders open. -/
def Places (rows : List (List String × Entry)) : Prop :=
  ∀ around inner, ∃ inner', ∀ more,
    placed (around ++ inner) (rowsAt around.length rows ++ more) =
      rows.map (fun row => (around ++ row.1, row.2)) ++ placed (around ++ inner') more

namespace Places

variable {rows rows' : List (List String × Entry)}

theorem nil : Places [] :=
  fun _ inner => ⟨inner, fun _ => rfl⟩

theorem append (h : Places rows) (h' : Places rows') : Places (rows ++ rows') := by
  intro around inner
  obtain ⟨middle, hrows⟩ := h around inner
  obtain ⟨inner', hrows'⟩ := h' around middle
  refine ⟨inner', fun more => ?_⟩
  rw [rowsAt_append, List.append_assoc, hrows, hrows', List.map_append, List.append_assoc]

theorem flatMap {es : List Entry} {f : Entry → List (List String × Entry)} (h : ∀ e ∈ es, Places (f e)) :
    Places (es.flatMap f) := by
  induction es with
  | nil => exact nil
  | cons e es ih =>
    rw [List.flatMap_cons]
    exact append (h e List.mem_cons_self) (ih fun e he => h e (List.mem_cons_of_mem _ he))

theorem file (name : String) : Places [([], .file name)] := by
  intro around inner
  refine ⟨inner, fun more => ?_⟩
  simp only [rowsAt, List.map_cons, List.map_nil, List.length_nil, Nat.add_zero, List.cons_append,
    List.nil_append, List.append_nil, placed, List.take_left]

theorem folder (name : String) (h : Places rows) : Places (([], .folder name) :: inside name rows) := by
  intro around inner
  obtain ⟨within, hrows⟩ := h (around ++ [name]) []
  refine ⟨name :: within, fun more => ?_⟩
  have hinside : (inside name rows).map (fun row => (around ++ row.1, row.2)) =
      rows.map fun row => (around ++ [name] ++ row.1, row.2) := by
    simp [inside]
  have hopened : rowsAt around.length (inside name rows) = rowsAt (around ++ [name]).length rows := by
    rw [rowsAt_inside, List.length_append, List.length_singleton]
  have hhead : rowsAt around.length (([], .folder name) :: inside name rows) =
      (around.length, .folder name) :: rowsAt around.length (inside name rows) := rfl
  rw [List.append_nil] at hrows
  rw [hhead, List.cons_append, placed, List.take_left, hopened, hrows, List.map_cons, hinside,
    List.append_nil, List.cons_append, List.append_assoc around, List.singleton_append]

theorem withInner {inner : String → List (List String × Entry)} (h : ∀ name, Places (inner name)) (e : Entry) :
    Places (withInner inner e) := by
  cases e with
  | file name => exact file name
  | folder name => exact folder name (h name)

end Places

theorem places_drawn (limit levels : Nat) (paths : List (List String)) : Places (drawn limit levels paths) := by
  induction levels generalizing paths with
  | zero => exact .file depthMarker
  | succ levels ih =>
    rw [drawn]
    refine .append (.flatMap fun e _ => .withInner (fun name => ih (below name paths)) e) ?_
    rw [moreLines]
    split
    · exact .file _
    · exact .nil

theorem placed_rowsAt_drawn (limit levels : Nat) (paths : List (List String)) :
    placed [] (rowsAt 0 (drawn limit levels paths)) = drawn limit levels paths := by
  obtain ⟨inner, hplaced⟩ := places_drawn limit levels paths [] []
  simpa [placed] using hplaced []

/-! ## Lines of one folder -/

section RowsIn

variable {rows rows' : List (List String × Entry)} {name : String} {folder : List String}

theorem rowsIn_append (folder : List String) :
    rowsIn (rows ++ rows') folder = rowsIn rows folder ++ rowsIn rows' folder := by
  rw [rowsIn, List.filter_append, List.map_append]
  rfl

theorem rowsIn_flatMap (es : List Entry) (f : Entry → List (List String × Entry)) (folder : List String) :
    rowsIn (es.flatMap f) folder = es.flatMap fun e => rowsIn (f e) folder := by
  rw [rowsIn, List.filter_flatMap, List.map_flatMap]
  rfl

theorem rowsIn_inside_nil : rowsIn (inside name rows) [] = [] := by
  simp +contextual [rowsIn, inside, List.filter_map, Function.comp_def]

theorem rowsIn_inside_cons (m : String) :
    rowsIn (inside m rows) (name :: folder) = if m = name then rowsIn rows folder else [] := by
  by_cases h : m = name <;> simp [rowsIn, inside, List.filter_map, Function.comp_def, h]

theorem rowsIn_withInner_nil (inner : String → List (List String × Entry)) (e : Entry) :
    rowsIn (withInner inner e) [] = [e] := by
  have hhead (rows : List (List String × Entry)) : rowsIn (([], e) :: rows) [] = e :: rowsIn rows [] := by
    simp [rowsIn]
  cases e with
  | file name => exact hhead []
  | folder name => rw [withInner, hhead, rowsIn_inside_nil]

theorem rowsIn_withInner_cons (inner : String → List (List String × Entry)) (e : Entry) :
    rowsIn (withInner inner e) (name :: folder) =
      if e = .folder name then rowsIn (inner name) folder else [] := by
  have hhead (rows : List (List String × Entry)) :
      rowsIn (([], e) :: rows) (name :: folder) = rowsIn rows (name :: folder) := by
    simp [rowsIn]
  cases e with
  | file m => exact hhead []
  | folder m =>
    rw [withInner, hhead, rowsIn_inside_cons]
    by_cases h : m = name <;> simp [h]

theorem flatMap_ite_eq {α β : Type} [DecidableEq α] {es : List α} (h : es.Nodup) (a : α) (bs : List β) :
    (es.flatMap fun e => if e = a then bs else []) = if a ∈ es then bs else [] := by
  induction es with
  | nil => rfl
  | cons e es ih =>
    obtain ⟨hnew, hes⟩ := List.nodup_cons.mp h
    rw [List.flatMap_cons, ih hes]
    by_cases heq : e = a
    · rw [if_pos heq, if_neg (heq ▸ hnew), List.append_nil, if_pos (heq ▸ List.mem_cons_self)]
    · simp [heq, Ne.symm heq]

end RowsIn

theorem rowsIn_drawn_nil : rowsIn (drawn limit levels paths) [] = listing limit levels paths := by
  cases levels with
  | zero => rfl
  | succ levels =>
    have hmarkers (markers : List String) :
        rowsIn (markers.map fun m => ([], .file m)) [] = markers.map Entry.file := by
      simp [rowsIn, List.filter_map, Function.comp_def]
    rw [drawn, rowsIn_append, rowsIn_flatMap, hmarkers]
    simp only [rowsIn_withInner_nil, List.flatMap_singleton']
    rfl

theorem rowsIn_drawn_zero (name : String) (folder : List String) :
    rowsIn (drawn limit 0 paths) (name :: folder) = [] :=
  rfl

/-- What is drawn in a folder below stands there if the folder is among the entries shown, and nowhere else. -/
theorem rowsIn_drawn_cons (name : String) (folder : List String) :
    rowsIn (drawn limit (levels + 1) paths) (name :: folder) =
      if .folder name ∈ (entries paths).take limit then rowsIn (drawn limit levels (below name paths)) folder
      else [] := by
  have hmarkers (markers : List String) :
      rowsIn (markers.map fun m => ([], .file m)) (name :: folder) = [] := by
    simp [rowsIn, List.filter_map, Function.comp_def]
  have hnodup : ((entries paths).take limit).Nodup := (List.take_sublist _ _).nodup (nodup_entries paths)
  rw [drawn, rowsIn_append, rowsIn_flatMap, hmarkers, List.append_nil]
  simp only [rowsIn_withInner_cons]
  exact flatMap_ite_eq hnodup _ _

end SolutionAtlas.FileTree
