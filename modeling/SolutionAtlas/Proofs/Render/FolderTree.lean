-- SUMMARY: The tree of folders that paths are put into holds what the paths lead to.
import Mathlib
import SolutionAtlas.Proofs.Render.TreeEntries
import SolutionAtlas.Proofs.Table

/-!
# Trees of folders

Paths are put into a tree one after the other. However many there are, a folder of the tree then has the names
of the files that paths lead to, and under the name of each folder the tree of the paths below it. So drawing
the tree is drawing the paths.
-/

namespace SolutionAtlas.FileTree

variable {f : Folder} {paths : List (List String)} {name : String}

/-- The tree that some paths are put into. -/
def Folder.ofPaths (paths : List (List String)) : Folder :=
  paths.foldl Folder.insert {}

theorem Folder.ofPaths_concat (paths : List (List String)) (p : List String) :
    ofPaths (paths ++ [p]) = (ofPaths paths).insert p :=
  List.foldl_concat Folder.insert {} p paths

/-- Paths without segments are put nowhere. -/
theorem Folder.ofPaths_filter (paths : List (List String)) :
    ofPaths (paths.filter (!·.isEmpty)) = ofPaths paths := by
  rw [ofPaths, ofPaths, List.foldl_filter]
  congr 1
  funext f p
  cases p with
  | nil => rfl
  | cons name rest => rfl

/-! ## Building -/

theorem below_concat_of_ne {p : List String} (h : ∀ next rest, p ≠ name :: next :: rest) :
    below name (paths ++ [p]) = below name paths := by
  have hnone : below name [p] = [] := by
    match p with
    | [] | [_] => rfl
    | n :: next :: rest =>
      have hn : n ≠ name := fun heq => h next rest (heq ▸ rfl)
      simp [below, hn]
  rw [below, List.filterMap_append, ← below, ← below, hnone, List.append_nil]

theorem below_concat_self (name next : String) (rest : List String) (paths : List (List String)) :
    below name (paths ++ [name :: next :: rest]) = below name paths ++ [next :: rest] := by
  simp [below, List.filterMap_append]

namespace Folder

/-- The folder holds what some paths lead to. -/
structure Holds (f : Folder) (paths : List (List String)) : Prop where
  files_ascending : f.files.Ascending
  mem_files : ∀ name, name ∈ f.files.keys ↔ [name] ∈ paths
  folders_ascending : Table.Ascending f.folders
  folder? : ∀ name, Table.get? name f.folders =
    if below name paths = [] then none else some (ofPaths (below name paths))

theorem Holds.empty : Holds {} [] where
  files_ascending := .nil
  mem_files name := by simp [Table.keys]
  folders_ascending := .nil
  folder? name := rfl

theorem Holds.insert (h : f.Holds paths) (p : List String) : (f.insert p).Holds (paths ++ [p]) := by
  match p with
  | [] =>
    refine ⟨h.files_ascending, fun name => ?_, h.folders_ascending, fun name => ?_⟩
    · simpa [Folder.insert] using h.mem_files name
    · rw [below_concat_of_ne (by simp)]
      exact h.folder? name
  | [name] =>
    refine ⟨h.files_ascending.insert name (), fun other => ?_, h.folders_ascending, fun other => ?_⟩
    · have hother := h.mem_files other
      rw [Table.mem_keys_iff] at hother ⊢
      rw [Folder.insert, Table.get?_insert, List.mem_append, ← hother]
      by_cases heq : name = other
      · simp [heq]
      · simp [heq, Ne.symm heq]
    · rw [below_concat_of_ne (by simp)]
      exact h.folder? other
  | name :: next :: rest =>
    refine ⟨h.files_ascending, fun other => ?_, h.folders_ascending.insert name _, fun other => ?_⟩
    · simpa [Folder.insert] using h.mem_files other
    · rw [Folder.insert, Table.get?_insert]
      split
      · rename_i heq
        subst heq
        -- The folder of that name has been made for the paths below it, or is empty like their tree.
        have hcontent : (Table.get? name f.folders).getD {} = ofPaths (below name paths) := by
          rw [h.folder?]
          split
          · rename_i hnone
            rw [hnone]
            rfl
          · rfl
        rw [below_concat_self, if_neg (by simp), ofPaths_concat, hcontent]
      · rename_i hne
        rw [below_concat_of_ne fun _ _ heq => hne (List.cons.inj heq).1]
        exact h.folder? other

theorem holds_ofPaths (paths : List (List String)) : (ofPaths paths).Holds paths := by
  induction paths using List.reverseRecOn with
  | nil => exact .empty
  | append_singleton paths p ih =>
    rw [ofPaths_concat]
    exact ih.insert p

theorem isEmpty_insert (f : Folder) (p : List String) : (f.insert p).isEmpty = (f.isEmpty && p.isEmpty) := by
  match p with
  | [] | [_] | _ :: _ :: _ => simp [insert, isEmpty]

/-- Only paths without segments leave the tree empty. -/
theorem isEmpty_ofPaths (paths : List (List String)) : (ofPaths paths).isEmpty = paths.all (·.isEmpty) := by
  induction paths using List.reverseRecOn with
  | nil => rfl
  | append_singleton paths p ih =>
    rw [ofPaths_concat, isEmpty_insert, ih, List.all_append, List.all_cons, List.all_nil, Bool.and_true]

/-! ## Items -/

/-- What an entry stands for in the tree of some paths. -/
def itemOf (paths : List (List String)) : Entry → Item
  | .folder name => .folder name (ofPaths (below name paths))
  | .file name => .file name

theorem below_ne_nil_iff : below name paths ≠ [] ↔ name ∈ folderNames paths := by
  have hsome : below name paths ≠ [] ↔ ∃ p, p ∈ below name paths := by
    simp [List.eq_nil_iff_forall_not_mem]
  simp only [hsome, mem_below, mem_folderNames, childOf_eq_folder]
  constructor
  · rintro ⟨p, hne, hp⟩
    obtain ⟨next, rest, rfl⟩ := List.exists_cons_of_ne_nil hne
    exact ⟨_, hp, next, rest, rfl⟩
  · rintro ⟨_, hp, next, rest, rfl⟩
    exact ⟨next :: rest, List.cons_ne_nil _ _, hp⟩

theorem Holds.mem_folders (h : f.Holds paths) : name ∈ Table.keys f.folders ↔ name ∈ folderNames paths := by
  rw [Table.mem_keys_iff, h.folder?, ← below_ne_nil_iff]
  by_cases hnone : below name paths = []
  · simp [hnone]
  · simp [hnone]

/-- Each folder of the tree is the tree of the paths below it. -/
theorem Holds.folders_eq (h : f.Holds paths) :
    f.folders = (Table.keys f.folders).map fun name => (name, ofPaths (below name paths)) := by
  rw [Table.keys, List.map_map]
  refine (List.map_id _).symm.trans (List.map_congr_left fun e he => ?_)
  have hfound := h.folders_ascending.get?_of_mem he
  rw [h.folder?] at hfound
  split at hfound
  · cases hfound
  · exact Prod.ext rfl (Option.some.inj hfound).symm

theorem Holds.items_eq (h : f.Holds paths) : f.items = (entries paths).map (itemOf paths) := by
  have hfiles : f.files.keys.mergeSort nameLe = sortedNames (fileNames paths) := by
    refine mergeSort_eq_sortedNames h.files_ascending.keys_nodup fun name => ?_
    simp [h.mem_files, mem_fileNames, childOf_eq_file]
  have hnames : (Table.keys f.folders).mergeSort nameLe = sortedNames (folderNames paths) :=
    mergeSort_eq_sortedNames h.folders_ascending.keys_nodup fun _ => h.mem_folders
  have hfolders : f.folders.mergeSort (fun a b => nameLe a.1 b.1) =
      (sortedNames (folderNames paths)).map fun name => (name, ofPaths (below name paths)) := by
    rw [h.folders_eq, ← hnames, List.map_mergeSort]
    exact fun _ _ _ _ => rfl
  rw [items, hfolders, hfiles, entries, List.map_append, List.map_map, List.map_map, List.map_map]
  rfl

/-! ## Lines -/

/-- Drawing the tree of some paths is drawing the paths. -/
theorem lines_ofPaths (limit levels : Nat) (indent : String) (paths : List (List String)) :
    (ofPaths paths).lines limit levels indent = FileTree.lines limit levels indent paths := by
  induction levels generalizing indent paths with
  | zero => rfl
  | succ levels ih =>
    simp only [Folder.lines, FileTree.lines, (holds_ofPaths paths).items_eq, List.length_map, ← List.map_take,
      List.zipIdx_map, List.flatMap_map]
    congr 1
    refine List.flatMap_congr fun x _ => ?_
    obtain ⟨e, i⟩ := x
    cases e with
    | file name => rfl
    | folder name => simp [itemOf, ih]

end Folder

end SolutionAtlas.FileTree
