-- SUMMARY: A drawn tree shows exactly the paths it was drawn from, and they can be read back from it.
import Mathlib
import SolutionAtlas.Proofs.Path.Shown
import SolutionAtlas.Proofs.Render.FolderTree

/-!
# Reading drawn trees

A line of a tree tells how many folders are around its entry, by what stands in front of the name, and a
folder from a file, by the slash behind it. So the paths can be read back from top to bottom: the folders
that are open at a line are those of the lines above it that stand further left.
-/

namespace SolutionAtlas

/-! ## Lines of a text -/

theorem Text.split_newline_intercalate {texts : List String} (hne : texts ≠ []) :
    split '\n' ("\n".intercalate texts) = texts.flatMap (split '\n') := by
  induction texts with
  | nil => exact absurd rfl hne
  | cons text texts ih =>
    rcases eq_or_ne texts [] with rfl | hrest
    · simp
    · have happend := split_append_singleton '\n' text ("\n".intercalate texts)
      rw [String.intercalate_cons_of_ne_nil hrest, List.flatMap_cons, ← ih hrest]
      exact happend

namespace FileTree

/-! ## Reading -/

/-- The entry of a name as it is drawn: a folder has a slash behind its name. -/
def readName (s : List Char) : Entry :=
  if s.getLast? = some '/' then .folder (String.ofList s.dropLast) else .file (String.ofList s)

/-- The entry of a line, with the number of folders around it. -/
def readLine : List Char → Option (Nat × Entry)
  | '│' :: ' ' :: ' ' :: ' ' :: s => (readLine s).map fun row => (row.1 + 1, row.2)
  | ' ' :: ' ' :: ' ' :: ' ' :: s => (readLine s).map fun row => (row.1 + 1, row.2)
  | '├' :: '─' :: '─' :: ' ' :: s => some (0, readName s)
  | '└' :: '─' :: '─' :: ' ' :: s => some (0, readName s)
  | _ => none

/-- The paths of the files among some entries, from top to bottom. `opened` are the folders that the
entry above stands in. -/
def follow : List String → List (Nat × Entry) → List (List String)
  | _, [] => []
  | opened, (depth, .folder name) :: rows => follow (opened.take depth ++ [name]) rows
  | opened, (depth, .file name) :: rows => (opened.take depth ++ [name]) :: follow opened rows

def fence : String := "\x60\x60\x60"

/-- The lines of the fenced block that a text ends with. -/
def fenced (text : String) : List String :=
  ((Text.split '\n' text).dropLast.reverse.takeWhile (· != fence)).reverse

/-- The paths that a text with a tree shows. -/
def decode (text : String) : List (List String) :=
  follow [] ((fenced text).filterMap (readLine ·.toList))

/-! ## Rows -/

/-- What the lines of a folder show. -/
def rows : Nat → Nat → List (List String) → List (Nat × Entry)
  | 0, _, _ => []
  | levels + 1, depth, paths =>
    (entries paths).flatMap fun e =>
      (depth, e) ::
        match e with
        | .file _ => []
        | .folder name => rows levels (depth + 1) (below name paths)

/-- The paths of a folder in the order in which they are drawn. -/
def listed : Nat → List (List String) → List (List String)
  | 0, _ => []
  | levels + 1, paths =>
    (entries paths).flatMap fun e =>
      match e with
      | .file name => [[name]]
      | .folder name => (listed levels (below name paths)).map (name :: ·)

/-- Reading the rows of a folder gives its paths, and leaves the folders around it open. -/
theorem follow_rows (levels : Nat) (paths : List (List String)) (around inner : List String) :
    ∃ inner', ∀ more, follow (around ++ inner) (rows levels around.length paths ++ more) =
      (listed levels paths).map (around ++ ·) ++ follow (around ++ inner') more := by
  induction levels generalizing paths around inner with
  | zero => exact ⟨inner, fun _ => rfl⟩
  | succ levels ih =>
    -- Within one folder the induction is on its entries: what one of them leaves open is `inner` to the next.
    simp only [rows, listed]
    generalize entries paths = es
    induction es generalizing inner with
    | nil => exact ⟨inner, fun _ => rfl⟩
    | cons e es ihes =>
      cases e with
      | file name =>
        obtain ⟨inner', hrest⟩ := ihes inner
        refine ⟨inner', fun more => ?_⟩
        simp only [List.flatMap_cons, List.cons_append, List.nil_append, follow, List.take_left, hrest,
          List.map_cons]
      | folder name =>
        obtain ⟨within, hfolder⟩ := ih (below name paths) (around ++ [name]) []
        obtain ⟨inner', hrest⟩ := ihes (name :: within)
        refine ⟨inner', fun more => ?_⟩
        rw [List.append_nil, List.length_append, List.length_singleton] at hfolder
        simp only [List.append_assoc, List.singleton_append] at hfolder
        simp only [List.flatMap_cons, List.cons_append, List.append_assoc, follow, List.take_left,
          hfolder, hrest, List.map_append, List.map_map, Function.comp_def]

/-- The paths of a tree that is deep enough for them are drawn. -/
theorem mem_listed {levels : Nat} {paths : List (List String)} (hne : [] ∉ paths)
    (hdepth : ∀ p ∈ paths, p.length ≤ levels) {p : List String} :
    p ∈ listed levels paths ↔ p ∈ paths := by
  induction levels generalizing paths p with
  | zero =>
    refine ⟨fun h => absurd h List.not_mem_nil, fun h => ?_⟩
    exact absurd (List.length_eq_zero_iff.mp (Nat.le_zero.mp (hdepth p h)) ▸ h) hne
  | succ levels ih =>
    have hbelow (name : String) (q : List String) : q ∈ listed levels (below name paths) ↔
        q ≠ [] ∧ name :: q ∈ paths := by
      refine (ih (fun h => (mem_below.mp h).1 rfl) fun q hq => ?_).trans mem_below
      exact Nat.le_of_succ_le_succ (hdepth _ (mem_below.mp hq).2)
    rw [listed, List.mem_flatMap]
    constructor
    · rintro ⟨e, he, hp⟩
      obtain ⟨q, hq, hqe⟩ := mem_entries.mp he
      cases e with
      | file name =>
        rw [List.mem_singleton.mp hp, ← childOf_eq_file.mp hqe]
        exact hq
      | folder name =>
        obtain ⟨r, hr, rfl⟩ := List.mem_map.mp hp
        exact ((hbelow name r).mp hr).2
    · intro hp
      match p with
      | [] => exact absurd hp hne
      | [name] => exact ⟨.file name, mem_entries.mpr ⟨_, hp, rfl⟩, List.mem_singleton_self _⟩
      | name :: s :: rest =>
        refine ⟨.folder name, mem_entries.mpr ⟨_, hp, rfl⟩, List.mem_map_of_mem ?_⟩
        exact (hbelow name _).mpr ⟨List.cons_ne_nil s rest, hp⟩

/-! ## Lines -/

/-- The line shows the row, and is one line. -/
structure Reads (line : String) (row : Nat × Entry) : Prop where
  readLine_eq : readLine line.toList = some row
  no_newline : '\n' ∉ line.toList

/-- The text in front of the entries of a folder with so many folders around it. -/
structure Indents (indent : String) (depth : Nat) : Prop where
  readLine_append : ∀ s, readLine (indent.toList ++ s) = (readLine s).map fun row => (row.1 + depth, row.2)
  no_newline : '\n' ∉ indent.toList

theorem Indents.nil : Indents "" 0 where
  readLine_append s := by simp
  no_newline := List.not_mem_nil

theorem Indents.step {indent : String} {depth : Nat} (h : Indents indent depth) (last : Bool) :
    Indents (indent ++ (if last then "    " else "│   ")) (depth + 1) where
  readLine_append s := by
    have hgroup : readLine ((if last then "    " else "│   ").toList ++ s) =
        (readLine s).map fun row => (row.1 + 1, row.2) := by
      cases last <;> rfl
    rw [String.toList_append, List.append_assoc, h.readLine_append, hgroup, Option.map_map]
    refine congrArg (fun f => (readLine s).map f) (funext fun row => ?_)
    simp only [Function.comp, Nat.add_assoc, Nat.add_comm 1]
  no_newline := by
    rw [String.toList_append, List.mem_append, not_or]
    exact ⟨h.no_newline, by cases last <;> decide⟩

theorem readName_file {name : String} (h : '/' ∉ name.toList) : readName name.toList = .file name := by
  rw [readName, if_neg fun hlast => h (List.mem_of_getLast? hlast), String.ofList_toList]

theorem readName_folder (name : String) : readName (name ++ "/").toList = .folder name := by
  have hlabel : (name ++ "/").toList = name.toList ++ ['/'] := String.toList_append
  rw [readName, hlabel, List.getLast?_concat, if_pos rfl, List.dropLast_concat, String.ofList_toList]

theorem Indents.reads {indent label : String} {depth : Nat} (h : Indents indent depth) (last : Bool)
    (hlabel : '\n' ∉ label.toList) :
    Reads (indent ++ (if last then lastBranch else branch) ++ label) (depth, readName label.toList) where
  readLine_eq := by
    have hbranch : readLine ((if last then lastBranch else branch).toList ++ label.toList) =
        some (0, readName label.toList) := by
      cases last <;> rfl
    rw [String.toList_append, String.toList_append, List.append_assoc, h.readLine_append, hbranch]
    simp
  no_newline := by
    simp only [String.toList_append, List.mem_append, not_or]
    exact ⟨⟨h.no_newline, by cases last <;> decide⟩, hlabel⟩

theorem forall₂_flatMap {α β γ : Type} {R : β → γ → Prop} {f : α → List β} {g : α → List γ} {xs : List α}
    (h : ∀ x ∈ xs, List.Forall₂ R (f x) (g x)) : List.Forall₂ R (xs.flatMap f) (xs.flatMap g) := by
  induction xs with
  | nil => exact .nil
  | cons x xs ih =>
    rw [List.flatMap_cons, List.flatMap_cons]
    exact List.rel_append (h x List.mem_cons_self) (ih fun y hy => h y (List.mem_cons_of_mem x hy))

/-- The paths fit a tree of so many levels and entries, and their segments can be read back. -/
structure Drawable (limit levels : Nat) (paths : List (List String)) : Prop where
  filled : [] ∉ paths
  shallow : ∀ p ∈ paths, p.length ≤ levels
  roomy : ∀ folder, (paths.filterMap (childOf folder)).dedup.length ≤ limit
  named : ∀ p ∈ paths, ∀ s ∈ p, '/' ∉ s.toList ∧ '\n' ∉ s.toList

namespace Drawable

variable {limit levels : Nat} {paths : List (List String)}

theorem below (h : Drawable limit (levels + 1) paths) (name : String) :
    Drawable limit levels (below name paths) where
  filled hnil := (mem_below.mp hnil).1 rfl
  shallow p hp := Nat.le_of_succ_le_succ (h.shallow _ (mem_below.mp hp).2)
  roomy folder := by
    rw [filterMap_childOf_below]
    exact h.roomy (name :: folder)
  named p hp s hs := h.named _ (mem_below.mp hp).2 s (List.mem_cons_of_mem name hs)

theorem lines_eq (h : Drawable limit (levels + 1) paths) (indent : String) :
    lines limit (levels + 1) indent paths =
      (entries paths).zipIdx.flatMap fun x =>
        let last := x.2 + 1 == (entries paths).length
        let lead := indent ++ (if last then lastBranch else branch)
        match x.1 with
        | .file name => [lead ++ name]
        | .folder name =>
          (lead ++ name ++ "/") ::
            lines limit levels (indent ++ (if last then "    " else "│   ")) (FileTree.below name paths) := by
  have hroom : (entries paths).length ≤ limit := (length_entries paths).trans_le (h.roomy [])
  simp only [lines, List.take_of_length_le hroom, Nat.sub_eq_zero_of_le hroom]
  exact List.append_nil _

/-- The lines of a folder show its rows. -/
theorem reads {indent : String} {depth : Nat} (h : Drawable limit levels paths) (hne : paths ≠ [])
    (hindent : Indents indent depth) :
    List.Forall₂ Reads (lines limit levels indent paths) (rows levels depth paths) := by
  induction levels generalizing paths indent depth with
  | zero =>
    obtain ⟨p, hp⟩ := List.exists_mem_of_ne_nil paths hne
    exact absurd (List.length_eq_zero_iff.mp (Nat.le_zero.mp (h.shallow p hp)) ▸ hp) h.filled
  | succ levels ih =>
    rw [h.lines_eq, rows, ← List.zipIdx_map_fst 0 (entries paths), List.flatMap_map,
      List.zipIdx_map_fst]
    refine forall₂_flatMap fun ⟨e, i⟩ hx => ?_
    obtain ⟨p, hp, hpe⟩ := mem_entries.mp (List.fst_mem_of_mem_zipIdx hx)
    dsimp only
    generalize (i + 1 == (entries paths).length) = last
    cases e with
    | file name =>
      obtain rfl := childOf_eq_file.mp hpe
      have hname := h.named _ hp name List.mem_cons_self
      have hline := hindent.reads last hname.2
      rw [readName_file hname.1] at hline
      exact .cons hline .nil
    | folder name =>
      obtain ⟨s, rest, rfl⟩ := childOf_eq_folder.mp hpe
      have hname := h.named _ hp name List.mem_cons_self
      have hlabel : '\n' ∉ (name ++ "/").toList := by
        rw [String.toList_append, List.mem_append, not_or]
        exact ⟨hname.2, by decide⟩
      have hline := hindent.reads last hlabel
      rw [readName_folder, ← String.append_assoc] at hline
      have hinner : FileTree.below name paths ≠ [] :=
        List.ne_nil_of_mem (mem_below.mpr ⟨List.cons_ne_nil s rest, hp⟩)
      exact .cons hline (ih (h.below name) hinner (hindent.step last))

end Drawable

/-! ## Trees -/

/-- The block at the end of a text is found, whatever is in front of it. -/
theorem fenced_intercalate {header body : List String} (h : ∀ line ∈ body, '\n' ∉ line.toList ∧ line ≠ fence) :
    fenced ("\n".intercalate (header ++ [fence] ++ body ++ [fence])) = body := by
  have hfence : Text.split '\n' fence = [fence] := Text.split_of_not_mem (by decide)
  have hbody : body.flatMap (Text.split '\n') = body :=
    (List.flatMap_congr fun line hline => Text.split_of_not_mem (h line hline).1).trans
      (List.flatMap_singleton' body)
  have hlines : ∀ line ∈ body.reverse, (line != fence) = true := fun line hline =>
    bne_iff_ne.mpr (h line (List.mem_reverse.mp hline)).2
  have hsplit : (header ++ [fence] ++ body ++ [fence]).flatMap (Text.split '\n') =
      header.flatMap (Text.split '\n') ++ fence :: body ++ [fence] := by
    simp [List.flatMap_append, hfence, hbody]
  rw [fenced, Text.split_newline_intercalate (by simp), hsplit, List.dropLast_concat, List.reverse_append,
    List.reverse_cons, List.append_assoc, List.takeWhile_append_of_pos hlines, List.singleton_append,
    List.takeWhile_cons_of_neg (by simp), List.append_nil, List.reverse_reverse]

/-- The segments of some paths, without the paths that have none. -/
def pathsOf (xs : List String) : List (List String) :=
  (xs.map segments).filter (!·.isEmpty)

theorem no_newline_of_mem_segments {x s : String} (hx : '\n' ∉ x.toList) (h : s ∈ segments x) :
    '\n' ∉ s.toList := by
  obtain ⟨piece, hpiece, rfl⟩ := List.mem_map.mp (List.mem_of_mem_filter h)
  intro hs
  rw [String.toList_ofList] at hs
  have hmem := Text.subset_of_mem_splitChars hpiece hs
  rw [Text.toList_forwardSlashes, Text.toList_trim] at hmem
  obtain ⟨c, hc, hcs⟩ := List.mem_map.mp hmem
  split at hcs
  · cases hcs
  · exact hx ((Text.trimChars_infix x.toList).subset (hcs ▸ hc))

/-- The segments of paths that are one line can be read back. -/
theorem no_slash_no_newline_of_mem_pathsOf {xs p : List String} {s : String} (hlines : ∀ x ∈ xs, '\n' ∉ x.toList)
    (hp : p ∈ pathsOf xs) (hs : s ∈ p) : '/' ∉ s.toList ∧ '\n' ∉ s.toList := by
  obtain ⟨x, hx, rfl⟩ := List.mem_map.mp (List.mem_of_mem_filter hp)
  exact ⟨Text.no_slash_of_mem_split (List.mem_of_mem_filter hs), no_newline_of_mem_segments (hlines x hx) hs⟩

/-- The tree of some paths is deep and wide enough for them, and each path is one line. -/
structure Fits (o : Options) (xs : List String) : Prop where
  no_newline : ∀ x ∈ xs, '\n' ∉ x.toList
  shallow : ∀ p ∈ pathsOf xs, p.length ≤ o.maxDepth
  roomy : ∀ folder, ((pathsOf xs).filterMap (childOf folder)).dedup.length ≤ o.maxEntries

variable {o : Options} {xs ys : List String}

theorem Fits.drawable (h : Fits o xs) : Drawable (max 1 o.maxEntries) (max 1 o.maxDepth) (pathsOf xs) where
  filled hnil := by simpa using (List.mem_filter.mp hnil).2
  shallow p hp := (h.shallow p hp).trans (le_max_right 1 _)
  roomy folder := (h.roomy folder).trans (le_max_right 1 _)
  named p hp s hs := no_slash_no_newline_of_mem_pathsOf h.no_newline hp hs

/-- The lines between the fences. -/
def body (o : Options) (paths : List (List String)) : List String :=
  if paths.isEmpty then ["(no files)"] else lines (max 1 o.maxEntries) (max 1 o.maxDepth) "" paths

theorem SamePaths.body_eq {paths paths' : List (List String)} (h : SamePaths paths paths') :
    body o paths = body o paths' := by
  have hempty : paths.isEmpty = paths'.isEmpty := by
    rw [Bool.eq_iff_iff, List.isEmpty_iff, List.isEmpty_iff, List.eq_nil_iff_forall_not_mem,
      List.eq_nil_iff_forall_not_mem]
    exact forall_congr' fun p => not_congr (h p)
  rw [body, body, hempty, h.lines_eq]

/-- The paths that no pattern leaves out. -/
def keptPaths (o : Options) (xs : List String) : List (List String) :=
  pathsOf (xs.filter fun x => !isExcluded o.excludePatterns x)

/-- Drawing the tree that paths are put into comes to drawing those that have segments. -/
theorem body_eq_tree (o : Options) (paths : List (List String)) :
    (if (Folder.ofPaths paths).isEmpty then ["(no files)"]
      else (Folder.ofPaths paths).lines (max 1 o.maxEntries) (max 1 o.maxDepth) "") =
      body o (paths.filter (!·.isEmpty)) := by
  have hempty : (Folder.ofPaths paths).isEmpty = (paths.filter (!·.isEmpty)).isEmpty := by
    rw [Folder.isEmpty_ofPaths, Bool.eq_iff_iff]
    simp
  rw [body, hempty, ← Folder.lines_ofPaths, Folder.ofPaths_filter]

theorem render_eq_body (o : Options) :
    ∃ header, ∀ xs, render xs o = "\n".intercalate (header ++ [fence] ++ body o (keptPaths o xs) ++ [fence]) := by
  refine ⟨o.header.elim [] fun h => if h.isEmpty then [] else [h], fun xs => ?_⟩
  rw [keptPaths, pathsOf, ← body_eq_tree, render]
  cases o.header <;> rfl

theorem filterMap_readLine {texts : List String} {rs : List (Nat × Entry)} (h : List.Forall₂ Reads texts rs) :
    texts.filterMap (readLine ·.toList) = rs := by
  induction h with
  | nil => rfl
  | cons hline _ ih => rw [List.filterMap_cons, hline.readLine_eq, ih]

theorem exists_reads {texts : List String} {rs : List (Nat × Entry)} (h : List.Forall₂ Reads texts rs)
    {line : String} (hline : line ∈ texts) : ∃ row, Reads line row := by
  induction h with
  | nil => cases hline
  | cons hfirst _ ih =>
    rcases List.mem_cons.mp hline with rfl | hline
    · exact ⟨_, hfirst⟩
    · exact ih hline

theorem Reads.ne_fence {line : String} {row : Nat × Entry} (h : Reads line row) : line ≠ fence := by
  rintro rfl
  have hread := h.readLine_eq
  cases hread

/-- A tree without paths has no line of an entry. -/
theorem fenced_render_of_eq_nil (h : keptPaths o xs = []) : fenced (render xs o) = ["(no files)"] := by
  obtain ⟨header, hrender⟩ := render_eq_body o
  have hbody : body o (keptPaths o xs) = ["(no files)"] := by rw [h]; rfl
  rw [hrender, hbody, fenced_intercalate (by decide +kernel)]

/-- The block of a tree with paths holds the lines of its outermost folder. -/
theorem fenced_render_of_ne {rs : List (Nat × Entry)} (hne : keptPaths o xs ≠ [])
    (hreads : List.Forall₂ Reads (lines (max 1 o.maxEntries) (max 1 o.maxDepth) "" (keptPaths o xs)) rs) :
    fenced (render xs o) = lines (max 1 o.maxEntries) (max 1 o.maxDepth) "" (keptPaths o xs) := by
  obtain ⟨header, hrender⟩ := render_eq_body o
  have hbody : body o (keptPaths o xs) = lines (max 1 o.maxEntries) (max 1 o.maxDepth) "" (keptPaths o xs) :=
    if_neg (by simpa using hne)
  have hlines : ∀ line ∈ body o (keptPaths o xs), '\n' ∉ line.toList ∧ line ≠ fence := by
    intro line hline
    rw [hbody] at hline
    obtain ⟨row, hrow⟩ := exists_reads hreads hline
    exact ⟨hrow.no_newline, hrow.ne_fence⟩
  rw [hrender, fenced_intercalate hlines, hbody]

theorem keptPaths_eq (hnone : o.excludePatterns = []) (xs : List String) : keptPaths o xs = pathsOf xs := by
  have hkept : xs.filter (!isExcluded o.excludePatterns ·) = xs :=
    List.filter_eq_self.mpr fun x _ => by simp [isExcluded, hnone]
  rw [keptPaths, hkept]

/-- What is read back from a tree are the paths that it was drawn from. -/
theorem decode_render (hnone : o.excludePatterns = []) (h : Fits o xs) :
    SamePaths (decode (render xs o)) (pathsOf xs) := by
  have hkept := keptPaths_eq hnone xs
  rcases eq_or_ne (pathsOf xs) [] with hempty | hne
  · rw [decode, fenced_render_of_eq_nil (hkept.trans hempty), hempty]
    intro p
    rfl
  · have hreads := h.drawable.reads hne .nil
    rw [← hkept] at hne hreads
    obtain ⟨inner, hfollow⟩ := follow_rows (max 1 o.maxDepth) (pathsOf xs) [] []
    have hread : decode (render xs o) = listed (max 1 o.maxDepth) (pathsOf xs) := by
      rw [decode, fenced_render_of_ne hne hreads, filterMap_readLine hreads, hkept]
      simpa [follow] using hfollow []
    intro p
    rw [hread, mem_listed h.drawable.filled h.drawable.shallow]

/-- A tree is a picture of the set of its paths: two lists of paths give the same tree exactly when they
hold the same paths, and the paths can be read back from it. -/
theorem render_eq_iff (hnone : o.excludePatterns = []) (hxs : Fits o xs) (hys : Fits o ys) :
    (render xs o = render ys o ↔ SamePaths (pathsOf xs) (pathsOf ys)) ∧
      SamePaths (decode (render xs o)) (pathsOf xs) := by
  refine ⟨⟨fun heq p => ?_, fun hsame => ?_⟩, decode_render hnone hxs⟩
  · rw [← decode_render hnone hxs p, heq, decode_render hnone hys p]
  · obtain ⟨header, hrender⟩ := render_eq_body o
    rw [hrender, hrender, keptPaths_eq hnone, keptPaths_eq hnone, hsame.body_eq]

/-- A tree that may show as many entries as there are paths is wide enough. -/
theorem Fits.of_length (hlines : ∀ x ∈ xs, '\n' ∉ x.toList)
    (hshallow : ∀ p ∈ pathsOf xs, p.length ≤ o.maxDepth) (hfew : (pathsOf xs).length ≤ o.maxEntries) :
    Fits o xs where
  no_newline := hlines
  shallow := hshallow
  roomy _ :=
    ((List.dedup_sublist _).length_le.trans (List.length_filterMap_le _ _)).trans hfew

namespace Example

/-- A folder and a file of one name. -/
def paths : List String :=
  ["src/b.cs", "src", "src/A.cs"]

def respelled : List String :=
  [" src//A.cs", "./src\\b.cs", "src/", "src/A.cs ", "."]

end Example

theorem render_eq_iff_respelled :
    Fits {} Example.paths ∧ Fits {} Example.respelled ∧
      render Example.paths {} = render Example.respelled {} ∧
      ∀ p, p ∈ decode (render Example.paths {}) ↔ p ∈ [["src"], ["src", "A.cs"], ["src", "b.cs"]] := by
  have hpaths : pathsOf Example.paths = [["src", "b.cs"], ["src"], ["src", "A.cs"]] := by decide +kernel
  have hrespelled : pathsOf Example.respelled =
      [["src", "A.cs"], ["src", "b.cs"], ["src"], ["src", "A.cs"]] := by decide +kernel
  have hxs : Fits {} Example.paths :=
    .of_length (by decide +kernel) (by rw [hpaths]; decide) (by rw [hpaths]; decide)
  have hys : Fits {} Example.respelled :=
    .of_length (by decide +kernel) (by rw [hrespelled]; decide) (by rw [hrespelled]; decide)
  obtain ⟨hiff, hdecode⟩ := render_eq_iff rfl hxs hys
  rw [hpaths] at hiff hdecode
  rw [hrespelled] at hiff
  exact ⟨hxs, hys, hiff.mpr (.of_subset (by decide) (by decide)),
    fun p => (hdecode p).trans (SamePaths.of_subset (by decide) (by decide) p)⟩

end FileTree

end SolutionAtlas
