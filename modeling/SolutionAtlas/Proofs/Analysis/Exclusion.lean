-- SUMMARY: Which projects of a solution are left out, and when that hangs on where the checkout lies.
import Mathlib
import SolutionAtlas.Analysis.Sweep
import SolutionAtlas.Proofs.Path.Steps

/-!
# Projects that are left out

A project is left out for its name, or for a folder that leads to its manifest. Below the root of the solution
only the folders from there on count. The way to a manifest elsewhere begins at the root of the disk, so that
the folders above a checkout count as well.
-/

namespace SolutionAtlas

/-- The name is marked by one of its words, or by its end. -/
def isMarkedName (markers : List String) (name : String) : Bool :=
  let words := (Text.splitChars isNameBreak name.toList).filter (!·.isEmpty)
  words.any (fun word => markers.any (Text.eqIgnoreCase (String.ofList word))) ||
    markers.any (Text.endsWith name)

/-- The folder is called like a marker. -/
def isMarkedFolder (markers : List String) (c : Path.Component) : Bool :=
  markers.any (Text.eqIgnoreCase c.text)

/-- The components of the folders that count for a manifest. -/
def foldersThatCount (root manifest : List Path.Component) : List Path.Component :=
  (if root <+: manifest then manifest.drop root.length else manifest).dropLast

theorem isExcludedProject_eq (markers : List String) (entry : ProjectEntry) {root : String}
    (hroot : Path.isAbsolute root = true) (hmanifest : Path.isAbsolute entry.manifestPath = true) :
    isExcludedProject markers entry root =
      (isMarkedName markers entry.name ||
        (foldersThatCount (Path.components root) (Path.components entry.manifestPath)).any
          (isMarkedFolder markers)) := by
  have hfolders : (Path.components ((Path.strip? root entry.manifestPath).getD entry.manifestPath)).dropLast =
      foldersThatCount (Path.components root) (Path.components entry.manifestPath) := by
    rw [foldersThatCount]
    cases hstrip : Path.strip? root entry.manifestPath with
    | none => rw [if_neg (Path.outside_of_strip?_eq_none hroot hstrip), Option.getD_none]
    | some rest =>
      have hbelow := Path.components_append_strip? hroot hmanifest hstrip
      rw [← hbelow, if_pos (List.prefix_append _ _), List.drop_left, Option.getD_some]
  rw [← hfolders, ← Path.components_parent?]
  rfl

/-- The steps that a relative path adds to a directory. -/
def Path.steps (path : String) : List Path.Component :=
  (Text.split '/' path).filterMap Path.Component.ofSegment?

/-- What root and manifest share drops out when the manifest lies below the root. -/
theorem foldersThatCount_append (base root manifest : List Path.Component) :
    foldersThatCount (base ++ root) (base ++ manifest) =
      (if root <+: manifest then manifest.drop root.length else base ++ manifest).dropLast := by
  simp only [foldersThatCount, List.prefix_append_right_inj, List.length_append, List.drop_append]
  rw [List.drop_eq_nil_of_le (Nat.le_add_right _ _), Nat.add_sub_cancel_left, List.nil_append]

variable {markers : List String} {name root manifest here there : String}

/-- Whether a project is left out whose manifest lies in one directory with its solution. -/
theorem isExcludedProject_join (hroot : Path.isAbsolute root = false) (hmanifest : Path.isAbsolute manifest = false)
    (hhere : Path.isAbsolute here = true) :
    isExcludedProject markers ⟨name, Path.join here manifest⟩ (Path.join here root) =
      (isMarkedName markers name ||
        (foldersThatCount (Path.components here ++ Path.steps root) (Path.components here ++ Path.steps manifest)).any
          (isMarkedFolder markers)) := by
  have hfilled := Path.ne_empty_of_isAbsolute hhere
  have habs {more : String} (h : Path.isAbsolute more = false) : Path.isAbsolute (Path.join here more) = true :=
    (Path.split_join hfilled h).1.trans hhere
  have hanswer := isExcludedProject_eq markers ⟨name, Path.join here manifest⟩ (habs hroot) (habs hmanifest)
  rw [Path.components_join hfilled hroot, Path.components_join hfilled hmanifest] at hanswer
  exact hanswer

/-- When a checkout is moved from one directory to another, a project is left out in both or in neither, exactly
when its manifest lies below the root of the solution, or its name is marked, or of all folders on the ways to
the manifest one is marked in both places or in neither. -/
theorem isExcludedProject_moved_iff (hroot : Path.isAbsolute root = false)
    (hmanifest : Path.isAbsolute manifest = false) (hhere : Path.isAbsolute here = true)
    (hthere : Path.isAbsolute there = true) :
    isExcludedProject markers ⟨name, Path.join here manifest⟩ (Path.join here root) =
        isExcludedProject markers ⟨name, Path.join there manifest⟩ (Path.join there root) ↔
      Path.steps root <+: Path.steps manifest ∨ isMarkedName markers name = true ∨
        (Path.components here ++ Path.steps manifest).dropLast.any (isMarkedFolder markers) =
          (Path.components there ++ Path.steps manifest).dropLast.any (isMarkedFolder markers) := by
  rw [isExcludedProject_join hroot hmanifest hhere, isExcludedProject_join hroot hmanifest hthere,
    foldersThatCount_append, foldersThatCount_append]
  by_cases hinside : Path.steps root <+: Path.steps manifest
  · rw [if_pos hinside, if_pos hinside]
    exact iff_of_true rfl (.inl hinside)
  · rw [if_neg hinside, if_neg hinside]
    cases isMarkedName markers name <;> simp [hinside]

/-- The project lies beside the solution, and the checkout in a folder for samples. -/
theorem isExcludedProject_moved_iff_beside :
    let markers := defaultMarkers
    isExcludedProject markers ⟨"Shared", Path.join "/home/samples" "Shared/Shared.csproj"⟩
        (Path.join "/home/samples" "App") ≠
      isExcludedProject markers ⟨"Shared", Path.join "/home/code" "Shared/Shared.csproj"⟩
        (Path.join "/home/code" "App") := by
  intro markers hsame
  have hwhen := (isExcludedProject_moved_iff (by decide) (by decide) (by decide) (by decide)).mp hsame
  revert hwhen
  decide +kernel

end SolutionAtlas
