-- SUMMARY: The entries of a drawn folder are those its paths lead to, and a tree shows only which paths there are.
import Mathlib
import SolutionAtlas.Render.FileTree
import SolutionAtlas.Proofs.Distinct

/-!
# Entries of folders

What a folder of a drawn tree holds is told by the paths that lead into it: it shows each entry that one of
them leads to, once, and in an order that the names alone decide. So a tree does not depend on the order of
the paths, nor on how often each is given.
-/

namespace SolutionAtlas.FileTree

/-! ## Sorted names -/

/-- Names are sorted by this key: the lower-case name, and among equal ones the name itself. -/
def nameKey (name : String) : String ×ₗ String :=
  toLex (Text.lower name, name)

theorem nameLe_iff {a b : String} : nameLe a b = true ↔ nameKey a ≤ nameKey b := by
  rw [nameKey, nameKey, Prod.Lex.toLex_le_toLex, nameLe]
  by_cases h : Text.lower a = Text.lower b
  · simp [h]
  · simp [h, lt_iff_le_and_ne]

theorem nameKey_injective : Function.Injective nameKey :=
  fun _ _ h => (Prod.mk.inj (toLex.injective h)).2

theorem pairwise_mergeSort_nameLe {names : List String} (h : names.Nodup) :
    (names.mergeSort nameLe).Pairwise fun a b => nameKey a < nameKey b := by
  have hle : (names.mergeSort nameLe).Pairwise fun a b => nameKey a ≤ nameKey b := by
    refine (List.pairwise_mergeSort ?_ ?_ _).imp nameLe_iff.mp
    · intro a b c hab hbc
      exact nameLe_iff.mpr ((nameLe_iff.mp hab).trans (nameLe_iff.mp hbc))
    · intro a b
      simpa [nameLe_iff] using le_total (nameKey a) (nameKey b)
  refine hle.imp₂ (fun a b hab hne => ?_) ((List.mergeSort_perm _ _).nodup_iff.mpr h)
  exact lt_of_le_of_ne hab (nameKey_injective.ne hne)

/-- The order of sorted names is decided by the names that there are. -/
theorem mergeSort_nameLe_congr {names names' : List String} (hnodup : names.Nodup) (hnodup' : names'.Nodup)
    (h : ∀ n, n ∈ names ↔ n ∈ names') : names.mergeSort nameLe = names'.mergeSort nameLe := by
  have hperm : (names.mergeSort nameLe).Perm (names'.mergeSort nameLe) :=
    (List.mergeSort_perm _ _).trans
      (((List.perm_ext_iff_of_nodup hnodup hnodup').mpr h).trans (List.mergeSort_perm _ _).symm)
  refine hperm.eq_of_pairwise (fun a b _ _ hab hba => ?_) (pairwise_mergeSort_nameLe hnodup)
    (pairwise_mergeSort_nameLe hnodup')
  exact absurd hab hba.asymm

/-- The names of a list in order, each once. -/
def sortedNames (names : List String) : List String :=
  (firstOfEach id names).mergeSort nameLe

theorem mem_sortedNames {name : String} {names : List String} :
    name ∈ sortedNames names ↔ name ∈ names := by
  rw [sortedNames, List.mem_mergeSort, firstOfEach, mem_firstUnseen]
  simp

theorem nodup_sortedNames (names : List String) : (sortedNames names).Nodup :=
  (List.mergeSort_perm _ _).nodup_iff.mpr (nodup_firstUnseen [] names)

theorem sortedNames_congr {names names' : List String} (h : ∀ n, n ∈ names ↔ n ∈ names') :
    sortedNames names = sortedNames names' := by
  refine mergeSort_nameLe_congr (nodup_firstUnseen [] names) (nodup_firstUnseen [] names') ?_
  simpa [firstOfEach, mem_firstUnseen] using h

/-- Names without repetitions are sorted as they are. -/
theorem mergeSort_eq_sortedNames {names names' : List String} (hnodup : names.Nodup)
    (h : ∀ n, n ∈ names ↔ n ∈ names') : names.mergeSort nameLe = sortedNames names' := by
  refine mergeSort_nameLe_congr hnodup (nodup_firstUnseen [] names') ?_
  simpa [firstOfEach, mem_firstUnseen] using h

theorem pairwise_sortedNames (names : List String) :
    (sortedNames names).Pairwise fun a b => nameKey a < nameKey b :=
  pairwise_mergeSort_nameLe (nodup_firstUnseen [] names)

/-! ## Entries -/

/-- An entry of a folder. -/
inductive Entry where
  | folder (name : String)
  | file (name : String)
  deriving DecidableEq

/-- The names of the folders that paths go on below. -/
def folderNames (paths : List (List String)) : List String :=
  paths.filterMap fun p =>
    match p with
    | name :: _ :: _ => some name
    | _ => none

/-- The names of the files that paths lead to. -/
def fileNames (paths : List (List String)) : List String :=
  paths.filterMap fun p =>
    match p with
    | [name] => some name
    | _ => none

/-- The entries of the folder that holds some paths: folders first. -/
def entries (paths : List (List String)) : List Entry :=
  (sortedNames (folderNames paths)).map .folder ++ (sortedNames (fileNames paths)).map .file

/-- The entry of a folder that a path leads to. -/
def childOf : List String → List String → Option Entry
  | [], [name] => some (.file name)
  | [], name :: _ :: _ => some (.folder name)
  | f :: folder, name :: rest => if f = name then childOf folder rest else none
  | _, [] => none

variable {paths paths' : List (List String)} {name : String} {e : Entry}

theorem childOf_eq_folder {p : List String} :
    childOf [] p = some (.folder name) ↔ ∃ s rest, p = name :: s :: rest := by
  match p with
  | [] | [_] | _ :: _ :: _ => simp [childOf]

theorem childOf_eq_file {p : List String} : childOf [] p = some (.file name) ↔ p = [name] := by
  match p with
  | [] | [_] | _ :: _ :: _ => simp [childOf]

theorem mem_folderNames : name ∈ folderNames paths ↔ ∃ p ∈ paths, childOf [] p = some (.folder name) := by
  rw [folderNames, List.mem_filterMap]
  refine exists_congr fun p => and_congr_right fun _ => ?_
  match p with
  | [] | [_] | _ :: _ :: _ => simp [childOf]

theorem mem_fileNames : name ∈ fileNames paths ↔ ∃ p ∈ paths, childOf [] p = some (.file name) := by
  rw [fileNames, List.mem_filterMap]
  refine exists_congr fun p => and_congr_right fun _ => ?_
  match p with
  | [] | [_] | _ :: _ :: _ => simp [childOf]

/-- A folder shows what its paths lead to. -/
theorem mem_entries : e ∈ entries paths ↔ ∃ p ∈ paths, childOf [] p = some e := by
  cases e with
  | folder name => simp [entries, mem_sortedNames, mem_folderNames]
  | file name => simp [entries, mem_sortedNames, mem_fileNames]

@[simp] theorem entries_nil : entries [] = [] := by
  simp [entries, sortedNames, folderNames, fileNames, firstOfEach, firstUnseen]

theorem nodup_entries (paths : List (List String)) : (entries paths).Nodup := by
  have hfolder : Function.Injective Entry.folder := fun _ _ h => Entry.folder.inj h
  have hfile : Function.Injective Entry.file := fun _ _ h => Entry.file.inj h
  refine List.Nodup.append ((nodup_sortedNames _).map hfolder) ((nodup_sortedNames _).map hfile) ?_
  intro e he he'
  obtain ⟨n, -, rfl⟩ := List.mem_map.mp he
  obtain ⟨m, -, hm⟩ := List.mem_map.mp he'
  cases hm

/-- The number of entries that a folder shows. -/
theorem length_entries (paths : List (List String)) :
    (entries paths).length = (paths.filterMap (childOf [])).dedup.length := by
  refine List.Perm.length_eq ?_
  rw [List.perm_ext_iff_of_nodup (nodup_entries paths) (List.nodup_dedup _)]
  intro e
  rw [mem_entries, List.mem_dedup, List.mem_filterMap]

/-! ## Folders below -/

/-- The paths below a folder, without the folder's name. -/
def below (name : String) (paths : List (List String)) : List (List String) :=
  paths.filterMap fun p =>
    match p with
    | n :: m :: rest => if n = name then some (m :: rest) else none
    | _ => none

theorem mem_below {p : List String} : p ∈ below name paths ↔ p ≠ [] ∧ name :: p ∈ paths := by
  rw [below, List.mem_filterMap]
  constructor
  · rintro ⟨q, hq, hp⟩
    match q with
    | [] | [_] => cases hp
    | n :: m :: rest =>
      dsimp only at hp
      split at hp
      · rename_i hn
        cases hp
        exact ⟨List.cons_ne_nil m rest, hn ▸ hq⟩
      · cases hp
  · rintro ⟨hne, hp⟩
    obtain ⟨m, rest, rfl⟩ := List.exists_cons_of_ne_nil hne
    exact ⟨_, hp, if_pos rfl⟩

/-- The entries of a folder below are entries of the whole. -/
theorem filterMap_childOf_below (folder : List String) :
    (below name paths).filterMap (childOf folder) = paths.filterMap (childOf (name :: folder)) := by
  rw [below, List.filterMap_filterMap]
  refine List.filterMap_congr fun p _ => ?_
  match p with
  | [] => cases folder <;> rfl
  | [n] => cases folder <;> simp [childOf]
  | n :: m :: rest =>
    by_cases hn : n = name
    · simp [childOf, hn]
    · simp [childOf, hn, Ne.symm hn]

/-! ## Trees of one set of paths -/

/-- The lines of a folder that holds some paths. -/
def lines (limit : Nat) : Nat → String → List (List String) → List String
  | 0, indent, _ => [indent ++ lastBranch ++ depthMarker]
  | levels + 1, indent, paths =>
    let all := entries paths
    let shown := all.take limit
    let hidden := all.length - limit
    let count := shown.length + (if hidden > 0 then 1 else 0)
    let drawn := shown.zipIdx.flatMap fun (entry, i) =>
      let isLast := i + 1 == count
      let lead := indent ++ (if isLast then lastBranch else branch)
      match entry with
      | .file name => [lead ++ name]
      | .folder name =>
        (lead ++ name ++ "/") ::
          lines limit levels (indent ++ (if isLast then "    " else "│   ")) (below name paths)
    drawn ++
      (if hidden > 0 then [indent ++ lastBranch ++ "... (" ++ toString hidden ++ " more items)"] else [])

/-- The lists hold the same paths. -/
def SamePaths (paths paths' : List (List String)) : Prop :=
  ∀ p, p ∈ paths ↔ p ∈ paths'

theorem SamePaths.of_subset (h : paths ⊆ paths') (h' : paths' ⊆ paths) : SamePaths paths paths' :=
  fun _ => ⟨fun hp => h hp, fun hp => h' hp⟩

theorem SamePaths.below (h : SamePaths paths paths') (name : String) :
    SamePaths (below name paths) (below name paths') := by
  intro p
  rw [mem_below, mem_below, h]

theorem SamePaths.entries_eq (h : SamePaths paths paths') : entries paths = entries paths' := by
  have hfolders : ∀ n, n ∈ folderNames paths ↔ n ∈ folderNames paths' := fun n => by
    simp only [mem_folderNames, h _]
  have hfiles : ∀ n, n ∈ fileNames paths ↔ n ∈ fileNames paths' := fun n => by
    simp only [mem_fileNames, h _]
  rw [entries, entries, sortedNames_congr hfolders, sortedNames_congr hfiles]

/-- The lines of a folder are decided by the paths that it holds. -/
theorem SamePaths.lines_eq {limit levels : Nat} {indent : String} (h : SamePaths paths paths') :
    lines limit levels indent paths = lines limit levels indent paths' := by
  induction levels generalizing indent paths paths' with
  | zero => rfl
  | succ levels ih =>
    simp only [lines, h.entries_eq]
    congr 1
    refine List.flatMap_congr fun x _ => ?_
    split
    · rfl
    · rw [ih (h.below _)]

end SolutionAtlas.FileTree
