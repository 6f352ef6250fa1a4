-- SUMMARY: When the directory that shown paths are relative to is the one the analysis went by.
import Mathlib
import SolutionAtlas.Proofs.Analysis.CacheHit
import SolutionAtlas.Query.Loaded

/-!
# The root of a solution

Discovery knows whether a path names a file or a directory, and takes the directory of a file or the
directory itself for the root. The solution that is made of it tells the two apart by its path alone: it
goes up from a path with an extension. Files of solutions and manifests have extensions. Directories
may have one too, and then the solution's root lies one step above that of its layout.
-/

namespace SolutionAtlas

/-! ## Names of files -/

namespace Path

/-- What names a file goes on naming it as the last part of a path. -/
theorem fileName?_path_concat (p : Place) {n name : String} (h : fileName? n = some name) :
    fileName? (Place.path (p ++ [n])) = some name := by
  have hlast : ((Text.split '/' n).filterMap Component.ofSegment?).getLast? = some (.name name) := by
    have hcomponents : (components n).getLast? = some (.name name) := by
      rw [fileName?] at h
      split at h
      · rename_i s hs
        cases h
        exact hs
      · cases h
    obtain ⟨first, rest, hsplit⟩ := List.exists_cons_of_ne_nil (Text.split_ne_nil n)
    rw [components, hsplit] at hcomponents
    rw [hsplit, ← List.singleton_append, List.filterMap_append, List.getLast?_append]
    dsimp only at hcomponents
    rw [List.getLast?_append] at hcomponents
    cases hrest : (rest.filterMap Component.ofSegment?).getLast? with
    | some c =>
      rw [hrest] at hcomponents
      exact hcomponents
    | none =>
      -- The name is the first segment, for neither the root nor the dot is a name.
      rw [hrest, Option.none_or] at hcomponents
      rw [Option.none_or]
      split at hcomponents
      · cases hcomponents
      · split at hcomponents
        · cases hcomponents
        · cases hfirst : Component.ofSegment? first with
          | none =>
            rw [hfirst] at hcomponents
            cases hcomponents
          | some c => simpa [hfirst] using hcomponents
  obtain ⟨lead, hlead⟩ : ∃ lead, Place.path (p ++ [n]) = lead ++ "/" ++ n := by
    rcases eq_or_ne p [] with rfl | hne
    · exact ⟨"", by simp [Place.path]⟩
    · refine ⟨Place.path p, ?_⟩
      rw [Place.path, String.intercalate_append_of_ne_nil hne (List.cons_ne_nil n [])]
      simp [Place.path, String.append_assoc]
  obtain ⟨first, rest, hsplit⟩ := List.exists_cons_of_ne_nil (Text.split_ne_nil lead)
  have habs : isAbsolute (lead ++ "/" ++ n) = true := hlead ▸ isAbsolute_path (p ++ [n])
  rw [hlead, fileName?, components, Text.split_append, hsplit, List.cons_append, habs]
  obtain ⟨front, hfront⟩ := List.getLast?_eq_some_iff.mp hlast
  simp only [List.filterMap_append, hfront, if_true, ← List.append_assoc, List.getLast?_concat]

theorem isSome_extension? {path extension : String} (h : hasExtension path extension = true) :
    (extension? path).isSome = true := by
  rw [hasExtension] at h
  split at h
  · rename_i e he
    rw [he]
    rfl
  · cases h

theorem extension?_path_concat (p : Place) {n : String} (h : (extension? n).isSome = true) :
    (extension? (Place.path (p ++ [n]))).isSome = true := by
  cases hname : fileName? n with
  | none =>
    rw [extension?, hname] at h
    cases h
  | some name =>
    rw [extension?, hname] at h
    rw [extension?, fileName?_path_concat p hname]
    exact h

theorem path_ne_path_dropLast {p : Place} (hp : p.Named) (hne : p ≠ []) :
    Place.path p.dropLast ≠ Place.path p := by
  intro heq
  have hplaces : p.dropLast = p := by
    rw [← Place.ofPath_path hp.dropLast, heq, Place.ofPath_path hp]
  have hlength := congrArg List.length hplaces
  have hpos := List.length_pos_of_ne_nil hne
  rw [List.length_dropLast] at hlength
  omega

end Path

/-! ## Roots of layouts -/

namespace Layout

variable {d : Disk} {path : String} {layout : Layout}

theorem isSome_extension?_of_isSolutionFile (h : isSolutionFile path = true) :
    (Path.extension? path).isSome = true :=
  (Bool.or_eq_true_iff.mp h).elim Path.isSome_extension? Path.isSome_extension?

/-- The layout is told by a file with an extension, in whose directory its root is. -/
structure IsOfFile (d : Disk) (layout : Layout) : Prop where
  not_folder : d.isFolder layout.path = false
  extension : (Path.extension? layout.path).isSome = true
  parent : Path.parent? layout.path = some layout.root

/-- The layout is that of a directory in which no file tells one. -/
structure IsOfFolder (d : Disk) (layout : Layout) : Prop where
  folder : d.isFolder layout.path = true
  root_eq : layout.root = layout.path
  place : ∃ p : Place, p.Named ∧ layout.path = p.path

theorem isOfFile_ofSolutionFile (hext : (Path.extension? path).isSome = true)
    (h : ofSolutionFile d path = .ok layout) : layout.IsOfFile d := by
  rw [ofSolutionFile] at h
  split at h
  · cases h
  · rename_i text htext
    obtain ⟨p, data, hp, hdata, -⟩ := Disk.readText_eq_ok.mp htext
    have hfile : d.isFolder path = false := by
      rw [Bool.eq_false_iff]
      intro hfolder
      obtain ⟨p', t, hp', ht⟩ := Disk.isFolder_eq_true.mp hfolder
      obtain rfl := Except.ok.inj (hp.symm.trans hp')
      rw [Disk.entryAt?_eq_file.mpr hdata] at ht
      cases ht
    rw [directoryOf] at h
    cases hparent : Path.parent? path with
    | none =>
      rw [hparent] at h
      cases h
    | some directory =>
      rw [hparent] at h
      cases h
      exact ⟨hfile, hext, hparent⟩

theorem isOfFile_ofManifest (hfile : d.isFolder path = false)
    (hext : (Path.extension? path).isSome = true) (h : ofManifest path = .ok layout) :
    layout.IsOfFile d := by
  rw [ofManifest, directoryOf] at h
  cases hparent : Path.parent? path with
  | none =>
    rw [hparent] at h
    cases h
  | some directory =>
    rw [hparent] at h
    cases h
    exact ⟨hfile, hext, hparent⟩

theorem ofDirectory_cases {folder : Place} (hnamed : folder.Named)
    (hfolder : d.isFolder folder.path = true) (h : ofDirectory d folder = .ok layout) :
    layout.IsOfFile d ∨ layout.IsOfFolder d := by
  simp only [ofDirectory] at h
  split at h
  · rename_i first rest hfirst
    have hmem : first ∈ solutionFilesIn d folder := hfirst ▸ List.mem_cons_self
    obtain ⟨n, hn, rfl⟩ := List.mem_map.mp hmem
    have hsolution := (List.mem_filter.mp (List.mem_mergeSort.mp hn)).2
    have hext := isSome_extension?_of_isSolutionFile (Bool.and_eq_true_iff.mp hsolution).1
    exact .inl (isOfFile_ofSolutionFile (Path.extension?_path_concat folder hext) h)
  · split at h
    · cases h
    · cases h
      exact .inr ⟨hfolder, rfl, folder, hnamed, rfl⟩

theorem discover_cases (h : discover d path = .ok layout) : layout.IsOfFile d ∨ layout.IsOfFolder d := by
  rw [discover] at h
  split at h
  · cases h
  · rename_i place hplace
    have hnamed : place.Named := Disk.eq_ofPath_of_locate hplace ▸ Place.named_ofPath path
    dsimp only at h
    split at h
    · rename_i hfolder
      exact ofDirectory_cases hnamed hfolder h
    · rename_i hfile
      split at h
      · rename_i hsolution
        exact .inl (isOfFile_ofSolutionFile (isSome_extension?_of_isSolutionFile hsolution) h)
      · split at h
        · rename_i hcsproj
          exact .inl (isOfFile_ofManifest (Bool.eq_false_iff.mpr hfile) (Path.isSome_extension? hcsproj) h)
        · cases h

end Layout

/-! ## Roots of solutions -/

theorem Sweep.path_solution (s : Sweep) (d : Disk) (layout : Layout) :
    (s.solution d layout).path = layout.path := by
  simp only [solution]
  split
  · rfl
  · split <;> rfl

theorem Solution.rootDir_of_file {s : Solution} {root : String}
    (hext : (Path.extension? s.path).isSome = true) (hparent : Path.parent? s.path = some root) :
    s.rootDir = root := by
  rw [rootDir, if_pos hext, hparent, Option.getD_some]

/-- The root of an analyzed solution is that of the layout it was made of, unless the path stood for a
directory whose name has an extension: then it is the directory above. -/
theorem Analyzer.rootDir_analyzeSolution_iff {a : Analyzer} {w : Workspace} {call : Call} {path : String}
    {s : Solution} (hs : (a.analyzeSolution w call path).result = .ok s) :
    ∃ layout, Layout.discover w.disk path = .ok layout ∧
      (s.rootDir = layout.root ↔
        (w.disk.isFolder layout.path = true → Path.extension? layout.path = none)) ∧
      (s.rootDir ≠ layout.root → Path.parent? layout.root = some s.rootDir) := by
  obtain ⟨layout, hlayout, -, hsolution, -⟩ := analyzeSolution_ok hs
  have hpath : s.path = layout.path := by rw [hsolution, Sweep.path_solution]
  refine ⟨layout, hlayout, ?_⟩
  rcases Layout.discover_cases hlayout with hfile | hfolder
  · have hroot : s.rootDir = layout.root :=
      Solution.rootDir_of_file (hpath ▸ hfile.extension) (hpath ▸ hfile.parent)
    refine ⟨⟨fun _ hf => ?_, fun _ => hroot⟩, fun hne => absurd hroot hne⟩
    rw [hfile.not_folder] at hf
    cases hf
  · cases hext : Path.extension? layout.path with
    | none =>
      have hroot : s.rootDir = layout.root := by
        rw [Solution.rootDir, hpath, hext, hfolder.root_eq]
        rfl
      exact ⟨⟨fun _ _ => rfl, fun _ => hroot⟩, fun hne => absurd hroot hne⟩
    | some e =>
      obtain ⟨p, hnamed, hp⟩ := hfolder.place
      have hne : p ≠ [] := by
        rintro rfl
        rw [hp] at hext
        cases hext
      have hparent : Path.parent? s.path = some (Place.path p.dropLast) := by
        rw [hpath, hp, Path.parent?_path hnamed hne]
      have hroot : s.rootDir = Place.path p.dropLast :=
        Solution.rootDir_of_file (by rw [hpath, hext]; rfl) hparent
      refine ⟨⟨fun hsame => ?_, fun hnone => ?_⟩, fun _ => ?_⟩
      · rw [hroot, hfolder.root_eq, hp] at hsame
        exact absurd hsame (Path.path_ne_path_dropLast hnamed hne)
      · cases hnone hfolder.folder
      · rw [hfolder.root_eq, ← hpath, hparent, hroot]

namespace Dotted

/-- A project in a directory with an extension, and no solution file. -/
def disk : Disk where
  folders := [(["ws"], 1), (["ws", "My.App"], 1)]
  files := [(["ws", "My.App", "P.csproj"], ⟨"<Project />".toUTF8, 10⟩)]

def workspace : Workspace := { provider := .workspace, disk }

def analyzer : Analyzer := { config := {}, exclude := {} }

def layout : Layout :=
  ⟨"My.App", "/ws/My.App", "/ws/My.App", [⟨"P", "/ws/My.App/P.csproj"⟩]⟩

def solution : Solution where
  name := "My.App"
  path := "/ws/My.App"
  projects := [{
    name := "P"
    projectFilePath := "/ws/My.App/P.csproj"
    rootDirectories := ["/ws/My.App"]
    files := [⟨"/ws/My.App/P.csproj", "P.csproj", "/ws/My.App/P.csproj", "csproj", 11, 1, 10, .config⟩]
    statistics := { fileCount := 1, totalLines := 1, totalSizeBytes := 11 } }]
  statistics := { fileCount := 1, totalLines := 1, totalSizeBytes := 11 }

end Dotted

/-- The project is left out or not by its way down from the directory; its path is shown from the
directory above. -/
theorem Analyzer.rootDir_analyzeSolution_iff_dotted :
    (Dotted.analyzer.analyzeSolution Dotted.workspace {} "/ws/My.App").result = .ok Dotted.solution ∧
      Layout.discover Dotted.disk "/ws/My.App" = .ok Dotted.layout ∧
      Dotted.solution.rootDir ≠ Dotted.layout.root ∧
      (LoadedSolution.ofSolution Dotted.solution none).root = "/ws" := by
  have hs : (Dotted.analyzer.analyzeSolution Dotted.workspace {} "/ws/My.App").result =
      .ok Dotted.solution := by decide +kernel
  have hlayout : Layout.discover Dotted.disk "/ws/My.App" = .ok Dotted.layout := by decide +kernel
  obtain ⟨layout, hlayout', hiff, hup⟩ := rootDir_analyzeSolution_iff hs
  obtain rfl := Except.ok.inj (hlayout'.symm.trans hlayout)
  have hne : Dotted.solution.rootDir ≠ Dotted.layout.root := by
    intro hsame
    have hnone := hiff.mp hsame (by decide +kernel)
    revert hnone
    decide
  refine ⟨hs, hlayout, hne, ?_⟩
  have hparent : Path.parent? Dotted.layout.root = some "/ws" := by decide +kernel
  exact Option.some.inj ((hup hne).symm.trans hparent)

end SolutionAtlas
