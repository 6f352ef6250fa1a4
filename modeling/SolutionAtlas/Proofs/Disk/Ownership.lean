-- SUMMARY: The files of a project: below the folder of its manifest, and of no other project.
import Mathlib
import SolutionAtlas.Proofs.Disk.Folders

/-!
# Whose a file is

A scan does not admit folders with a manifest of their own, on any level below its root. So whatever walk
it is made with, as long as that goes only into admitted folders, a file that is listed for a manifest
belongs to the nearest folder above it that holds one, and two manifests in different folders never list
the same file, however the folders lie to each other.
-/

namespace SolutionAtlas

/-! ## The folder of a path -/

namespace Path

/-- Without the fillers at the end, the segments end with the last name. -/
theorem dropFillersAtEnd_of_getLast? {segments : List String} {name : String}
    (h : (segments.filterMap Component.ofSegment?).getLast? = some (.name name)) :
    ∃ front, dropFillersAtEnd segments = front ++ [name] ∧ isFiller name = false ∧ name ≠ ".." := by
  induction segments using List.reverseRecOn with
  | nil => cases h
  | append_singleton segments s ih =>
    rw [dropFillersAtEnd_concat]
    rw [List.filterMap_append, List.filterMap_cons] at h
    rcases ofSegment?_cases s with ⟨hfiller, hs⟩ | ⟨-, -, hs⟩ | ⟨hfiller, hparent, hs⟩
    · rw [if_pos hfiller]
      rw [hs] at h
      exact ih (by simpa using h)
    · rw [hs] at h
      simp at h
    · rw [hs] at h
      obtain rfl : s = name := by simpa using h
      exact ⟨segments, if_neg (by simp [hfiller]), hfiller, hparent⟩

theorem dropFillersAtEnd_dropFillersAtEnd (segments : List String) :
    dropFillersAtEnd (dropFillersAtEnd segments) = dropFillersAtEnd segments := by
  induction segments using List.reverseRecOn with
  | nil => rfl
  | append_singleton segments s ih =>
    rw [dropFillersAtEnd_concat]
    split
    · exact ih
    · rename_i hs
      rw [dropFillersAtEnd_concat, if_neg hs]

/-- Trimming a path keeps its segments, but for fillers at the end. -/
theorem dropFillersAtEnd_trimEnd {segments : List String} (h : ∀ s ∈ segments, '/' ∉ s.toList)
    (hne : segments ≠ []) :
    dropFillersAtEnd ((Text.split '/' (trimEnd (ofSegments ("" :: segments)))).drop 1) =
      dropFillersAtEnd segments := by
  have hslash : ∀ s ∈ "" :: segments, '/' ∉ s.toList := List.forall_mem_cons.mpr ⟨by decide, h⟩
  rw [trimEnd, split_ofSegments hslash (List.cons_ne_nil _ _)]
  dsimp only
  split
  · rename_i hnothing
    rw [hnothing, if_pos (isAbsolute_ofSegments hne)]
    decide
  · obtain ⟨fillers, -, happend⟩ := dropFillersAtEnd_append segments
    have hkept : ∀ s ∈ "" :: dropFillersAtEnd segments, '/' ∉ s.toList := by
      rw [← happend] at hslash
      exact fun s hs => hslash s (List.mem_append_left fillers hs)
    rw [split_ofSegments hkept (List.cons_ne_nil _ _)]
    exact dropFillersAtEnd_dropFillersAtEnd segments

variable {path : String}

/-- The segments of the parent of a path are those before its last name, but for fillers. -/
theorem dropFillersAtEnd_parent? (habs : isAbsolute path = true) {name root : String}
    (hname : fileName? path = some name) (hroot : parent? path = some root) :
    ∃ front fillers, (∀ s ∈ fillers, isFiller s = true) ∧ isFiller name = false ∧ name ≠ ".." ∧
      (Text.split '/' path).drop 1 = front ++ [name] ++ fillers ∧
      dropFillersAtEnd ((Text.split '/' root).drop 1) = dropFillersAtEnd front := by
  obtain ⟨rest, -, hsplit⟩ := split_of_isAbsolute habs
  have hlast : (components path).getLast? = some (.name name) := by
    rw [fileName?] at hname
    split at hname
    · rename_i s hs
      cases hname
      exact hs
    · cases hname
  have hend : (rest.filterMap Component.ofSegment?).getLast? = some (.name name) := by
    rw [components, hsplit] at hlast
    dsimp only at hlast
    rw [if_pos habs, List.singleton_append, List.getLast?_cons] at hlast
    cases hsome : (rest.filterMap Component.ofSegment?).getLast? with
    | none =>
      rw [hsome] at hlast
      cases hlast
    | some c =>
      rw [hsome] at hlast
      exact hlast
  obtain ⟨front, hkept, hfiller, hparent⟩ := dropFillersAtEnd_of_getLast? hend
  obtain ⟨fillers, hfillers, happend⟩ := dropFillersAtEnd_append rest
  rw [hkept] at happend
  refine ⟨front, fillers, hfillers, hfiller, hparent, by rw [hsplit, happend]; rfl, ?_⟩
  have hslash : ∀ s ∈ "" :: (front ++ [name]), '/' ∉ s.toList := by
    intro s hs
    refine Text.no_slash_of_mem_split (?_ : s ∈ Text.split '/' path)
    rw [hsplit, ← happend]
    exact List.cons_subset_cons "" (List.subset_append_left _ fillers) hs
  have htrim : Text.split '/' (trimEnd path) = "" :: (front ++ [name]) := by
    rw [trimEnd, hsplit]
    dsimp only
    rw [hkept]
    split
    · rename_i hnil
      simp at hnil
    · exact split_ofSegments hslash (List.cons_ne_nil _ _)
  rw [parent?, hlast] at hroot
  dsimp only at hroot
  rw [htrim] at hroot
  dsimp only at hroot
  rw [List.dropLast_concat] at hroot
  split at hroot
  · rw [if_neg (by simp), if_pos habs] at hroot
    cases hroot
    decide
  · rename_i hne
    cases hroot
    refine dropFillersAtEnd_trimEnd (fun s hs => hslash s ?_) hne
    exact List.mem_cons_of_mem _ (List.mem_append_left _ hs)

/-- The extension of a path is that of its last name. -/
theorem hasExtension_fileName? {extension : String} (h : hasExtension path extension = true) :
    ∃ name, fileName? path = some name ∧ hasExtension name extension = true := by
  cases hname : fileName? path with
  | none =>
    rw [hasExtension, extension?, hname] at h
    cases h
  | some name =>
    refine ⟨name, rfl, ?_⟩
    have hproper : IsName name := by
      refine Disk.isName_of_mem_components (List.mem_of_getLast? (?_ : (components path).getLast? = _))
      rw [fileName?] at hname
      split at hname
      · rename_i s hs
        cases hname
        exact hs
      · cases hname
    have hself : fileName? name = some name := by
      rw [fileName?, components_of_isName hproper]
      rfl
    rw [hasExtension, extension?, hname] at h
    rw [hasExtension, extension?, hself]
    exact h

end Path

namespace Disk

variable {d : Disk}

theorem exists_of_readText {path text : String} (h : d.readText path = .ok text) :
    ∃ p data, d.locate path = .ok p ∧ d.entryAt? p = some (.file data) := by
  obtain ⟨p, data, hp, hdata, -⟩ := readText_eq_ok.mp h
  exact ⟨p, data, hp, entryAt?_eq_file.mpr hdata⟩

theorem walk_fillers {p : Place} {t : Nat} (hp : d.entryAt? p = some (.folder t)) {fillers : List String}
    (h : ∀ s ∈ fillers, Path.isFiller s = true) : d.walk p fillers = .ok p := by
  induction fillers with
  | nil => rw [walk, hp]; rfl
  | cons s fillers ih =>
    rw [walk, hp]
    dsimp only
    rw [if_pos (h s List.mem_cons_self)]
    exact ih fun u hu => h u (List.mem_cons_of_mem s hu)

/-- Fillers at the end make no difference to a walk that ends in a folder. -/
theorem walk_congr {p q : Place} {t : Nat} {segments segments' : List String}
    (hq : d.entryAt? q = some (.folder t)) (h : d.walk p segments = .ok q)
    (halike : Path.dropFillersAtEnd segments' = Path.dropFillersAtEnd segments) :
    d.walk p segments' = .ok q := by
  obtain ⟨fillers, hfillers, happend⟩ := Path.dropFillersAtEnd_append segments
  obtain ⟨fillers', hfillers', happend'⟩ := Path.dropFillersAtEnd_append segments'
  rw [← happend] at h
  rw [← happend', halike, walk_append hfillers h]
  exact walk_fillers hq hfillers'

/-- A walk leads through every place on its way. -/
theorem walk_split {p q : Place} {front back : List String} (h : d.walk p (front ++ back) = .ok q) :
    ∃ r, d.walk p front = .ok r ∧ d.walk r back = .ok q := by
  induction front generalizing p with
  | nil =>
    refine ⟨p, ?_, h⟩
    rw [walk, if_pos]
    rw [Option.isSome_iff_ne_none]
    intro hnothing
    cases back <;> simp [walk, hnothing] at h
  | cons s front ih =>
    rw [List.cons_append, walk] at h
    rw [walk]
    split at h
    · cases h
    · cases h
    · split at h
      · rename_i hs
        simp only [if_pos hs]
        exact ih h
      · rename_i hs
        simp only [if_neg hs]
        split at h
        · rename_i hup
          simp only [if_pos hup]
          exact ih h
        · rename_i hup
          simp only [if_neg hup]
          exact ih h

theorem walk_name {p q : Place} {name : String} {fillers : List String}
    (hfiller : Path.isFiller name = false) (hparent : name ≠ "..")
    (hfillers : ∀ s ∈ fillers, Path.isFiller s = true) (h : d.walk p (name :: fillers) = .ok q) :
    (∃ t, d.entryAt? p = some (.folder t)) ∧ q = p ++ [name] := by
  have hplace := eq_follow_of_walk h
  rw [walk] at h
  split at h
  · cases h
  · cases h
  · rename_i t hfolder
    refine ⟨⟨t, hfolder⟩, ?_⟩
    rw [hplace, Place.follow, if_neg (by simp [hfiller]), if_neg (by simpa using hparent)]
    have hnames : fillers.filterMap Path.Component.ofSegment? = ([] : Place).map .name :=
      List.filterMap_eq_nil_iff.mpr fun s hs => Path.ofSegment?_of_isFiller (hfillers s hs)
    rw [Place.follow_eq_append hnames, List.append_nil]

/-- The parent of a path leads to the folder that the path's last name lies in. -/
theorem locate_parent? {path name root : String} {p : Place} (h : d.locate path = .ok p)
    (hname : Path.fileName? path = some name) (hroot : Path.parent? path = some root) :
    ∃ q t, p = q ++ [name] ∧ d.locate root = .ok q ∧ d.entryAt? q = some (.folder t) := by
  rw [locate] at h
  split at h
  · rename_i habs
    obtain ⟨front, fillers, hfillers, hfiller, hparent, hsplit, halike⟩ :=
      Path.dropFillersAtEnd_parent? habs hname hroot
    rw [hsplit, List.append_assoc] at h
    obtain ⟨q, hfront, hend⟩ := walk_split h
    obtain ⟨⟨t, hfolder⟩, hp⟩ := walk_name hfiller hparent hfillers hend
    refine ⟨q, t, hp, ?_, hfolder⟩
    rw [locate, if_pos (Path.isAbsolute_parent? habs hroot)]
    exact walk_congr hfolder hfront halike
  · cases h

/-! ## Entries of a folder -/

/-- The names in a folder are those of its entries. -/
theorem mem_namesIn {folder : Place} {name : String} :
    name ∈ d.namesIn folder ↔ (d.entryAt? (folder ++ [name])).isSome = true := by
  have hentry : (d.entryAt? (folder ++ [name])).isSome = true ↔
      folder ++ [name] ∈ d.files.map (·.1) ++ d.folders.map (·.1) := by
    rw [List.mem_append, ← isSome_lookup, ← isSome_lookup, entryAt?]
    cases d.files.lookup (folder ++ [name]) <;> simp
  rw [hentry, namesIn, List.mem_filterMap]
  constructor
  · rintro ⟨p, hp, hname⟩
    split at hname
    · rename_i hfolder
      rw [← beq_iff_eq.mp hfolder, List.dropLast_append_getLast?]
      exacts [hp, hname]
    · cases hname
  · intro hp
    exact ⟨_, hp, by simp⟩

/-- The folder that what a path names lies in. -/
def folderOf? (d : Disk) (path : String) : Option Place :=
  (d.locate path).toOption.map List.dropLast

/-- A file at a place belongs to a folder: it lies below, and no folder strictly between the two has an
entry with the extension of manifests. -/
structure Owns (d : Disk) (folder p : Place) : Prop where
  below : folder <+: p
  ne : p ≠ folder
  no_manifest : ∀ q name, folder <+: q → q ≠ folder → q <+: p → q ≠ p →
    Path.hasExtension name "csproj" = true → d.entryAt? (q ++ [name]) = none

/-- A file belongs to one folder with a manifest only, the nearest above it. -/
theorem Owns.eq_of_manifest {folder folder' p : Place} {name name' : String}
    (h : d.Owns folder p) (hname : Path.hasExtension name "csproj" = true)
    (hthere : (d.entryAt? (folder ++ [name])).isSome = true) (h' : d.Owns folder' p)
    (hname' : Path.hasExtension name' "csproj" = true)
    (hthere' : (d.entryAt? (folder' ++ [name'])).isSome = true) : folder = folder' := by
  by_contra hne
  rcases List.prefix_or_prefix_of_prefix h.below h'.below with hlead | hlead
  · rw [h.no_manifest folder' name' hlead (Ne.symm hne) h'.below h'.ne.symm hname'] at hthere'
    cases hthere'
  · rw [h'.no_manifest folder name hlead hne h.below h.ne.symm hname] at hthere
    cases hthere

end Disk

/-! ## Scans -/

namespace Scan

variable {d : Disk}

section Walks

variable {walk : Walk} (hwalk : walk.Sound)

include hwalk

/-- A scan that keeps to one project lists the files of its root. -/
theorem owns_of_mem_walk {root p : Place} (h : p ∈ walk d (admits d false) root) : d.Owns root p := by
  obtain ⟨hlead, hne⟩ := hwalk.below h
  refine ⟨hlead, hne, fun q name hroot hneRoot hp hneq hname => ?_⟩
  have hadmitted := hwalk.admitted h q hroot hneRoot hp hneq
  simp only [admits, holdsManifest, Bool.and_eq_true, Bool.false_or, Bool.not_eq_true',
    List.any_eq_false] at hadmitted
  by_contra hthere
  exact hadmitted.2 name (Disk.mem_namesIn.mpr (Option.isSome_iff_ne_none.mpr hthere)) hname

/-- The files that a scan of a folder lists are there, and are its own. -/
theorem owns_of_mem_pathsBy (hnamed : d.FilesNamed) (hfolders : d.FoldersHold) {root path : String}
    {folder : Place} {t : Nat} (hroot : d.locate root = .ok folder)
    (hfolder : d.entryAt? folder = some (.folder t)) (h : path ∈ pathsBy walk d false root) :
    ∃ p data, d.locate path = .ok p ∧ d.entryAt? p = some (.file data) ∧ d.Owns folder p := by
  rw [pathsBy, hroot] at h
  dsimp only at h
  rw [hfolder] at h
  obtain ⟨names, hnames, rfl⟩ := List.mem_map.mp h
  have hfound := mem_walk_of_mem_placesBelow hwalk hnames
  obtain ⟨hne, ⟨p, data⟩, hmem, rfl⟩ := mem_placesBelow hwalk hnames
  have hproper : Place.Named names := (hnamed _ hmem).mono (List.subset_append_right folder names)
  have hat := (Disk.locate_join hroot hproper hne).trans (Disk.walk_names hfolders hproper hmem)
  obtain ⟨data, hdata⟩ := hwalk.is_file hfound
  exact ⟨folder ++ names, data, hat, hdata, owns_of_mem_walk hwalk hfound⟩

end Walks

theorem isShown_nil (p : Place) (isFolder : Bool) :
    isShown [] p isFolder = !Text.startsWith (p.getLast?.getD "") "." := by
  simp [isShown, IgnoreFile.keepsByAll?, IgnoreFile.keepsByKind?]

end Scan

/-! ## Projects -/

namespace Provider

variable {d : Disk}

/-- All that is listed for a manifest is a file below its folder with no other manifest's folder between, and
manifests in different folders have no file in common, under whatever paths. -/
structure OwnedApart (d : Disk) (load : String → Except AnalysisError ProjectSource) : Prop where
  owned : ∀ manifest source, Path.hasExtension manifest "csproj" = true → load manifest = .ok source →
    ∃ folder, d.folderOf? manifest = some folder ∧ ∀ path ∈ source.files,
      ∃ p data, d.locate path = .ok p ∧ d.entryAt? p = some (.file data) ∧ d.Owns folder p
  apart : ∀ manifest manifest' source source', Path.hasExtension manifest "csproj" = true →
    Path.hasExtension manifest' "csproj" = true → d.folderOf? manifest ≠ d.folderOf? manifest' →
    load manifest = .ok source → load manifest' = .ok source' →
    source.files.Disjoint source'.files ∧
      ∀ path ∈ source.files, ∀ path' ∈ source'.files, d.locate path ≠ d.locate path'

section Walks

variable {walk : Scan.Walk} (hwalk : walk.Sound) (hnamed : d.FilesNamed) (hfolders : d.FoldersHold)

include hwalk hnamed hfolders

/-- A manifest that is read lies in a folder, and the files of its project are the folder's own. -/
theorem owns_of_loadBy {manifest : String} {source : ProjectSource}
    (hmanifest : Path.hasExtension manifest "csproj" = true) (h : loadBy walk d manifest = .ok source) :
    ∃ folder name, d.folderOf? manifest = some folder ∧ Path.hasExtension name "csproj" = true ∧
      (d.entryAt? (folder ++ [name])).isSome = true ∧ ∀ path ∈ source.files,
        ∃ p data, d.locate path = .ok p ∧ d.entryAt? p = some (.file data) ∧ d.Owns folder p := by
  obtain ⟨root, hroot, -, hpaths⟩ := loadBy_ok h
  obtain ⟨p, data, hp, hfile⟩ := Disk.exists_of_readText (readText_of_loadBy h)
  obtain ⟨name, hname, hext⟩ := Path.hasExtension_fileName? hmanifest
  obtain ⟨folder, t, rfl, hfolder, hentry⟩ := Disk.locate_parent? hp hname hroot
  refine ⟨folder, name, ?_, hext, by rw [hfile]; rfl, fun path hpath => ?_⟩
  · rw [Disk.folderOf?, hp, Except.toOption, Option.map_some, List.dropLast_concat]
  · exact Scan.owns_of_mem_pathsBy hwalk hnamed hfolders hfolder hentry ((hpaths path).mp hpath)

theorem ownedApart_loadBy : OwnedApart d (loadBy walk d) where
  owned manifest source hext h := by
    obtain ⟨folder, name, hfolder, -, -, howns⟩ := owns_of_loadBy hwalk hnamed hfolders hext h
    exact ⟨folder, hfolder, howns⟩
  apart manifest manifest' source source' hext hext' hne h h' := by
    obtain ⟨folder, name, hfolder, hname, hthere, howns⟩ := owns_of_loadBy hwalk hnamed hfolders hext h
    obtain ⟨folder', name', hfolder', hname', hthere', howns'⟩ :=
      owns_of_loadBy hwalk hnamed hfolders hext' h'
    have hapart : ∀ path ∈ source.files, ∀ path' ∈ source'.files, d.locate path ≠ d.locate path' := by
      intro path hpath path' hpath' hsame
      obtain ⟨p, data, hp, -, hown⟩ := howns path hpath
      obtain ⟨p', data', hp', -, hown'⟩ := howns' path' hpath'
      obtain rfl : p = p' := Except.ok.inj (hp.symm.trans (hsame.trans hp'))
      refine hne ?_
      rw [hfolder, hfolder', hown.eq_of_manifest hname hthere hown' hname' hthere']
    exact ⟨fun path hpath hpath' => hapart path hpath path hpath' rfl, hapart⟩

end Walks

/-- No file belongs to two projects, whatever walk the files of a project are found with, as long as it finds
files below its root only, and goes only into folders that the scan admits. The walk that leaves out what is
hidden or ignored is one of these. -/
theorem workspace_files_owned (hnamed : d.FilesNamed) (hfolders : d.FoldersHold) :
    (∀ walk : Scan.Walk, walk.Sound → OwnedApart d (loadBy walk d)) ∧ OwnedApart d (workspace.loadProject d) :=
  ⟨fun _ hwalk => ownedApart_loadBy hwalk hnamed hfolders,
    ownedApart_loadBy Scan.sound_shownFiles hnamed hfolders⟩

/-- A project two folders below another: the outer one lists what lies beside the inner one's folder. -/
def nestedProjects : Disk :=
  let file (name : String) : FileData := ⟨name.toUTF8, 1⟩
  { files := [(["w", "A.csproj"], file "A"), (["w", "K.cs"], file "K"), (["w", "s", "L.cs"], file "L"),
      (["w", "s", "B", "B.csproj"], file "B"), (["w", "s", "B", "M.cs"], file "M")]
    folders := [(["w"], 1), (["w", "s"], 1), (["w", "s", "B"], 1)] }

theorem workspace_files_owned_nested :
    ∃ outer inner, workspace.loadProject nestedProjects "/w/A.csproj" = .ok outer ∧
      workspace.loadProject nestedProjects "/w/s/../s/B/B.csproj" = .ok inner ∧
      "/w/s/L.cs" ∈ outer.files ∧ (∃ p data, nestedProjects.locate "/w/s/L.cs" = .ok p ∧
        nestedProjects.entryAt? p = some (.file data) ∧ nestedProjects.Owns ["w"] p) ∧
      outer.files.Disjoint inner.files := by
  have hnamed : nestedProjects.FilesNamed := by decide +kernel
  have hfolders : nestedProjects.FoldersHold := by decide +kernel
  have htext : nestedProjects.readText "/w/A.csproj" = .ok "A" := by decide +kernel
  have hroot : Path.parent? "/w/A.csproj" = some "/w" := by decide +kernel
  have htext' : nestedProjects.readText "/w/s/../s/B/B.csproj" = .ok "B" := by decide +kernel
  have hroot' : Path.parent? "/w/s/../s/B/B.csproj" = some "/w/s/../s/B" := by decide +kernel
  obtain ⟨outer, houter⟩ := loadFromDisk_succeeds htext hroot
  obtain ⟨inner, hinner⟩ := loadFromDisk_succeeds htext' hroot'
  have hlisted : "/w/s/L.cs" ∈ outer.files := by
    obtain ⟨root, hparent, -, hfiles⟩ := loadFromDisk_ok houter
    obtain rfl : "/w" = root := Option.some.inj (hroot.symm.trans hparent)
    have hrules : IgnoreFile.all nestedProjects = [] := by
      rw [← List.isEmpty_iff]
      decide +kernel
    have hlocate : nestedProjects.locate "/w" = .ok ["w"] := by decide +kernel
    have hfolder : nestedProjects.entryAt? ["w"] = some (.folder 1) := by rfl
    rw [hfiles, Scan.paths, Scan.pathsBy, hlocate]
    dsimp only
    rw [hfolder]
    refine List.mem_map.mpr ⟨["s", "L.cs"], ?_, by decide +kernel⟩
    simp only [Scan.placesBelow, Scan.shownFiles, List.mem_mergeSort, List.mem_map, List.mem_filter, hrules,
      Scan.finds, Scan.isShown_nil]
    exact ⟨["w", "s", "L.cs"], by decide +kernel, by decide +kernel⟩
  obtain ⟨-, hown, hapart⟩ := workspace_files_owned hnamed hfolders
  obtain ⟨folder, hfolder, hfiles⟩ := hown "/w/A.csproj" outer (by decide +kernel) houter
  have hin : nestedProjects.folderOf? "/w/A.csproj" = some ["w"] := by decide +kernel
  obtain rfl : folder = ["w"] := Option.some.inj (hfolder.symm.trans hin)
  refine ⟨outer, inner, houter, hinner, hlisted, hfiles _ hlisted, ?_⟩
  exact (hapart "/w/A.csproj" "/w/s/../s/B/B.csproj" outer inner (by decide +kernel) (by decide +kernel)
    (by decide +kernel) houter hinner).1

end Provider

end SolutionAtlas
