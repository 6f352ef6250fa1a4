-- SUMMARY: Places on a disk: what paths lead to, what changes keep, and what a scan lists.
import Mathlib
import SolutionAtlas.Analysis.Provider
import SolutionAtlas.Proofs.Path

/-!
# Places on a disk

Where a path leads is told by its text; a disk only decides whether there is something. All changes
of a disk put files at places with proper names, so that what a scan lists is in plain spelling.
-/

namespace SolutionAtlas

/-! ## Where paths lead -/

/-- Goes on from a place by the segments of a path, whatever there is. -/
def Place.follow : Place → List String → Place
  | p, [] => p
  | p, s :: rest =>
    if Path.isFiller s then follow p rest
    else if s == ".." then follow p.dropLast rest
    else follow (p ++ [s]) rest

/-- The place that a path leads to, if to any. -/
def Place.ofPath (path : String) : Place :=
  follow [] ((Text.split '/' path).drop 1)

theorem Text.not_mem_of_mem_splitOnP {c : Char} {s piece : List Char}
    (h : piece ∈ s.splitOnP (· == c)) : c ∉ piece := by
  induction s generalizing piece with
  | nil =>
    rw [List.splitOnP_nil, List.mem_singleton] at h
    exact h ▸ List.not_mem_nil
  | cons b s ih =>
    rw [List.splitOnP_cons_eq_if_modifyHead] at h
    split at h
    · rcases List.mem_cons.mp h with rfl | h
      · exact List.not_mem_nil
      · exact ih h
    · rename_i hb
      obtain ⟨first, rest, hpieces⟩ := List.exists_cons_of_ne_nil (List.splitOnP_ne_nil (· == c) s)
      rw [hpieces, List.modifyHead_cons] at h
      rw [hpieces] at ih
      rcases List.mem_cons.mp h with rfl | h
      · have hne : c ≠ b := fun heq => hb (beq_iff_eq.mpr heq.symm)
        exact fun hmem => (List.mem_cons.mp hmem).elim hne (ih List.mem_cons_self)
      · exact ih (List.mem_cons_of_mem _ h)

theorem Text.no_slash_of_mem_split {s path : String} (h : s ∈ Text.split '/' path) :
    '/' ∉ s.toList := by
  rw [Text.split, Text.splitChars_eq_splitOnP] at h
  obtain ⟨piece, hpiece, rfl⟩ := List.mem_map.mp h
  rw [String.toList_ofList]
  exact not_mem_of_mem_splitOnP hpiece

theorem Place.named_follow {p : Place} {segments : List String} (hp : p.Named)
    (h : ∀ s ∈ segments, '/' ∉ s.toList) : (p.follow segments).Named := by
  induction segments generalizing p with
  | nil => exact hp
  | cons s rest ih =>
    have hrest : ∀ t ∈ rest, '/' ∉ t.toList := fun t ht => h t (List.mem_cons_of_mem _ ht)
    rw [follow]
    split
    · exact ih hp hrest
    · rename_i hfiller
      split
      · exact ih hp.dropLast hrest
      · rename_i hparent
        have hs : Path.IsName s :=
          ⟨by simpa using hfiller, by simpa using hparent, h s List.mem_cons_self⟩
        exact ih (hp.append fun t ht => List.mem_singleton.mp ht ▸ hs) hrest

theorem Place.named_ofPath (path : String) : (Place.ofPath path).Named :=
  named_follow .nil fun _ hs => Text.no_slash_of_mem_split (List.mem_of_mem_drop hs)

theorem Place.follow_named {p q : Place} (hq : q.Named) : p.follow q = p ++ q := by
  induction q generalizing p with
  | nil => rw [follow, List.append_nil]
  | cons s q ih =>
    have hs : Path.IsName s := hq s List.mem_cons_self
    rw [follow, if_neg (by simp [hs.not_filler]), if_neg (by simpa using hs.not_parent),
      ih (hq.mono (List.subset_cons_self s q)), List.append_assoc]
    rfl

theorem Place.ofPath_path {p : Place} (hp : p.Named) : Place.ofPath p.path = p := by
  rcases eq_or_ne p [] with rfl | hne
  · decide
  · rw [ofPath, Path.split_path hp hne]
    exact follow_named hp

namespace Disk

variable {d : Disk}

theorem eq_follow_of_walk {p q : Place} {segments : List String}
    (h : d.walk p segments = .ok q) : q = p.follow segments := by
  induction segments generalizing p with
  | nil =>
    rw [walk] at h
    split at h
    · cases h
      rfl
    · cases h
  | cons s rest ih =>
    rw [walk] at h
    rw [Place.follow]
    split at h
    · cases h
    · cases h
    · split at h
      · rename_i hfiller
        rw [if_pos hfiller]
        exact ih h
      · rename_i hfiller
        rw [if_neg hfiller]
        split at h
        · rename_i hparent
          rw [if_pos hparent]
          exact ih h
        · rename_i hparent
          rw [if_neg hparent]
          exact ih h

theorem eq_ofPath_of_locate {path : String} {p : Place} (h : d.locate path = .ok p) :
    p = Place.ofPath path := by
  rw [locate] at h
  split at h
  · exact eq_follow_of_walk h
  · cases h

/-- The canonical path does not depend on the disk, as long as there is one. -/
theorem eq_path_of_canonical {path full : String} (h : d.canonical path = .ok full) :
    full = (Place.ofPath path).path := by
  rw [canonical] at h
  cases hp : d.locate path with
  | error e =>
    rw [hp] at h
    cases h
  | ok p =>
    rw [hp] at h
    cases h
    rw [← eq_ofPath_of_locate hp]

/-! ## Changes -/

/-- Every file lies at a place with proper names. -/
def FilesNamed (d : Disk) : Prop :=
  ∀ e ∈ d.files, e.1.Named

instance (d : Disk) : Decidable d.FilesNamed :=
  inferInstanceAs (Decidable (∀ e ∈ d.files, e.1.Named))

theorem filesNamed_empty : FilesNamed {} := by
  intro e he
  cases he

theorem isName_of_mem_components {path s : String} (h : Path.Component.name s ∈ Path.components path) :
    Path.IsName s := by
  have hsegment {t : String} (ht : t ∈ Text.split '/' path)
      (hname : Path.Component.ofSegment? t = some (.name s)) : Path.IsName s := by
    rw [Path.Component.ofSegment?] at hname
    split at hname
    · cases hname
    · rename_i hfiller
      split at hname
      · cases hname
      · rename_i hparent
        cases hname
        exact ⟨by simpa [Path.isFiller] using hfiller, by simpa using hparent,
          Text.no_slash_of_mem_split ht⟩
  rw [Path.components] at h
  cases hsplit : Text.split '/' path with
  | nil =>
    rw [hsplit] at h
    cases h
  | cons first rest =>
    rw [hsplit] at h hsegment
    rcases List.mem_append.mp h with hstart | hrest
    · split at hstart
      · simp at hstart
      · split at hstart
        · simp at hstart
        · exact hsegment List.mem_cons_self (Option.mem_toList.mp hstart)
    · obtain ⟨t, ht, hname⟩ := List.mem_filterMap.mp hrest
      exact hsegment (List.mem_cons_of_mem _ ht) hname

theorem named_wouldBe (path : String) : (wouldBe path).Named := by
  intro s hs
  obtain ⟨c, hc, hname⟩ := List.mem_filterMap.mp hs
  cases c with
  | name t =>
    cases hname
    exact isName_of_mem_components hc
  | root => cases hname
  | current => cases hname
  | parent => cases hname

@[simp] theorem files_addFolder (d : Disk) (now : Nat) (p : Place) :
    (d.addFolder now p).files = d.files := by
  rw [addFolder]
  generalize above p ++ [p] = places
  induction places generalizing d with
  | nil => rfl
  | cons q places ih =>
    rw [List.foldl_cons, ih]
    split <;> rfl

theorem FilesNamed.makeFolder (h : d.FilesNamed) {now : Nat} {path : String} {d' : Disk}
    (hd : d.makeFolder now path = .ok d') : d'.FilesNamed := by
  simp only [Disk.makeFolder] at hd
  split at hd
  · cases hd
    exact h
  · cases hd
  · split at hd
    · cases hd
    · obtain rfl := Except.ok.inj hd
      rw [FilesNamed, files_addFolder]
      exact h

theorem FilesNamed.write (h : d.FilesNamed) {now : Nat} {path : String} {data : FileData} {d' : Disk}
    (hd : d.write now path data = .ok d') : d'.FilesNamed := by
  have hplace := named_wouldBe path
  simp only [Disk.write] at hd
  generalize wouldBe path = p at hplace hd
  split at hd
  · cases hd
  · split at hd
    · cases hd
    · obtain rfl := Except.ok.inj hd
      intro e he
      dsimp only at he
      rw [files_addFolder] at he
      rcases List.mem_append.mp he with he | he
      · exact h e (List.mem_of_mem_filter he)
      · rw [List.mem_singleton.mp he]
        exact hplace

theorem FilesNamed.remove (h : d.FilesNamed) {path : String} {d' : Disk}
    (hd : d.remove path = .ok d') : d'.FilesNamed := by
  rw [Disk.remove] at hd
  cases hp : d.locate path with
  | error e =>
    rw [hp] at hd
    cases hd
  | ok p =>
    rw [hp] at hd
    cases hd
    exact fun e he => h e (List.mem_of_mem_filter he)

end Disk

/-! ## Scans -/

variable {d : Disk}

theorem Disk.isSome_lookup {β : Type} {p : Place} {entries : List (Place × β)} :
    (entries.lookup p).isSome = true ↔ p ∈ entries.map (·.1) := by
  rw [Option.isSome_iff_ne_none, Ne, List.lookup_eq_none_iff, List.mem_map]
  constructor
  · intro h
    by_contra hnot
    exact h fun e he => bne_iff_ne.mpr fun heq => hnot ⟨e, he, heq.symm⟩
  · rintro ⟨e, he, rfl⟩ h
    exact bne_iff_ne.mp (h e he) rfl

theorem Disk.exists_file_of_mem {e : Place × FileData} (h : e ∈ d.files) :
    ∃ data, d.entryAt? e.1 = some (.file data) := by
  have hsome : (d.files.lookup e.1).isSome = true := isSome_lookup.mpr (List.mem_map_of_mem h)
  obtain ⟨data, hdata⟩ := Option.isSome_iff_exists.mp hsome
  exact ⟨data, by rw [entryAt?, hdata]⟩

theorem Scan.mem_between {root p q : Place} (hlead : root <+: p) :
    q ∈ between root p ↔ root <+: q ∧ q ≠ root ∧ q <+: p ∧ q ≠ p := by
  have hrange : ∀ n, n ∈ (List.range p.length).drop (root.length + 1) ↔
      root.length < n ∧ n < p.length := by
    intro n
    rw [List.mem_drop_iff_getElem]
    simp only [List.getElem_range, List.length_range]
    constructor
    · rintro ⟨k, hk, rfl⟩
      omega
    · rintro ⟨hlow, hhigh⟩
      exact ⟨n - (root.length + 1), by omega, by omega⟩
  rw [between, List.mem_map]
  constructor
  · rintro ⟨n, hn, rfl⟩
    obtain ⟨hlow, hhigh⟩ := (hrange n).mp hn
    have hlength : (p.take n).length = n := by rw [List.length_take]; omega
    refine ⟨List.prefix_take_iff.mpr ⟨hlead, hlow.le⟩, fun h => ?_, List.take_prefix n p, fun h => ?_⟩
    · rw [h] at hlength
      omega
    · rw [h] at hlength
      omega
  · rintro ⟨hroot, hneRoot, hp, hne⟩
    refine ⟨q.length, (hrange _).mpr ⟨?_, ?_⟩, (List.prefix_iff_eq_take.mp hp).symm⟩
    · exact lt_of_le_of_ne hroot.length_le fun h => hneRoot (hroot.eq_of_length h).symm
    · exact lt_of_le_of_ne hp.length_le fun h => hne (hp.eq_of_length h)

/-- What a walk may be relied on for: all that it finds are files below its root, and it has gone only into
folders that it was allowed to go into. -/
structure Scan.Walk.Sound (walk : Walk) : Prop where
  is_file : ∀ {d admits root p}, p ∈ walk d admits root → ∃ data, d.entryAt? p = some (.file data)
  below : ∀ {d admits root p}, p ∈ walk d admits root → root <+: p ∧ p ≠ root
  admitted : ∀ {d admits root p}, p ∈ walk d admits root →
    ∀ q, root <+: q → q ≠ root → q <+: p → q ≠ p → admits q = true

theorem Scan.sound_shownFiles : Walk.Sound shownFiles := by
  have hfinds {d admits root p} (h : p ∈ shownFiles d admits root) :
      p ∈ d.files.map (·.1) ∧ root.length < p.length ∧ root <+: p ∧
        ∀ q ∈ between root p, admits q = true := by
    obtain ⟨hfile, hfound⟩ := List.mem_filter.mp h
    simp only [finds, Bool.and_eq_true, decide_eq_true_eq, List.isPrefixOf_iff_prefix, List.all_eq_true] at hfound
    obtain ⟨⟨⟨hlength, hlead⟩, -⟩, hbetween⟩ := hfound
    exact ⟨hfile, hlength, hlead, fun q hq => (hbetween q hq).2⟩
  constructor
  · intro d admits root p h
    obtain ⟨e, he, rfl⟩ := List.mem_map.mp (hfinds h).1
    exact Disk.exists_file_of_mem he
  · intro d admits root p h
    obtain ⟨-, hlength, hlead, -⟩ := hfinds h
    exact ⟨hlead, fun heq => hlength.ne' (congrArg List.length heq)⟩
  · intro d admits root p h q hroot hneRoot hp hne
    obtain ⟨-, -, hlead, hbetween⟩ := hfinds h
    exact hbetween q ((mem_between hlead).mpr ⟨hroot, hneRoot, hp, hne⟩)

theorem Disk.mem_files_of_entryAt? {p : Place} {data : FileData}
    (h : d.entryAt? p = some (.file data)) : (p, data) ∈ d.files := by
  unfold entryAt? at h
  cases hp : d.files.lookup p with
  | none =>
    rw [hp] at h
    dsimp only at h
    split at h
    · cases h
    · cases hfolder : d.folders.lookup p with
      | none =>
        rw [hfolder] at h
        cases h
      | some t =>
        rw [hfolder] at h
        cases h
  | some data' =>
    rw [hp] at h
    cases h
    obtain ⟨before, after, hfiles, -⟩ := List.lookup_eq_some_iff.mp hp
    rw [hfiles]
    simp

section Walks

variable {walk : Scan.Walk} (hwalk : walk.Sound)

include hwalk

theorem Scan.mem_walk_of_mem_placesBelow {acrossProjects : Bool} {root : Place} {names : List String}
    (h : names ∈ placesBelow walk d acrossProjects root) :
    root ++ names ∈ walk d (admits d acrossProjects) root := by
  rw [placesBelow, List.mem_mergeSort] at h
  obtain ⟨p, hp, rfl⟩ := List.mem_map.mp h
  rwa [List.prefix_iff_eq_append.mp (hwalk.below hp).1]

theorem Scan.mem_placesBelow {acrossProjects : Bool} {root : Place} {names : List String}
    (h : names ∈ placesBelow walk d acrossProjects root) :
    names ≠ [] ∧ ∃ e ∈ d.files, e.1 = root ++ names := by
  have hfound := mem_walk_of_mem_placesBelow hwalk h
  obtain ⟨data, hdata⟩ := hwalk.is_file hfound
  refine ⟨?_, _, Disk.mem_files_of_entryAt? hdata, rfl⟩
  rintro rfl
  exact (hwalk.below hfound).2 (List.append_nil root)

end Walks

/-- What a scan lists below a place are the paths of files. -/
theorem Scan.mem_files_of_mem_paths (hd : d.FilesNamed) {acrossProjects : Bool} {root : Place}
    (hroot : root.Named) {path : String} (h : path ∈ paths d acrossProjects root.path) :
    ∃ e ∈ d.files, path = e.1.path := by
  rw [paths, pathsBy] at h
  cases hp : d.locate root.path with
  | error e =>
    rw [hp] at h
    cases h
  | ok p =>
    rw [hp] at h
    obtain rfl : p = root := (Disk.eq_ofPath_of_locate hp).trans (Place.ofPath_path hroot)
    dsimp only at h
    split at h
    · rename_i data hfile
      exact ⟨(p, data), Disk.mem_files_of_entryAt? hfile, List.mem_singleton.mp h⟩
    · obtain ⟨names, hnames, rfl⟩ := List.mem_map.mp h
      obtain ⟨hne, e, he, heq⟩ := mem_placesBelow sound_shownFiles hnames
      have hnamed : Place.Named (p ++ names) := heq ▸ hd e he
      refine ⟨e, he, ?_⟩
      rw [heq]
      exact Path.join_path hroot (hnamed.mono (List.subset_append_right p names)) hne

/-- All files that a provider lists for a project. -/
def ProjectSource.files (source : ProjectSource) : List String :=
  source.documents ++ source.otherFiles

theorem Provider.loadBy_ok {walk : Scan.Walk} {manifest : String} {source : ProjectSource}
    (h : loadBy walk d manifest = .ok source) :
    ∃ root, Path.parent? manifest = some root ∧ source.rootDirs = [root] ∧
      ∀ path, path ∈ source.files ↔ path ∈ Scan.pathsBy walk d false root := by
  rw [loadBy] at h
  split at h
  · cases h
  · split at h
    · cases h
    · rename_i root hroot
      cases h
      refine ⟨root, hroot, rfl, fun path => List.mem_append.trans ?_⟩
      exact List.mem_partition.symm

theorem Provider.loadFromDisk_ok {manifest : String} {source : ProjectSource}
    (h : loadFromDisk d manifest = .ok source) :
    ∃ root, Path.parent? manifest = some root ∧ source.rootDirs = [root] ∧
      ∀ path, path ∈ source.files ↔ path ∈ Scan.paths d false root :=
  loadBy_ok h

theorem Provider.loadProject_workspace : Provider.workspace.loadProject = loadFromDisk := rfl

theorem Provider.readText_of_loadBy {walk : Scan.Walk} {manifest : String} {source : ProjectSource}
    (h : loadBy walk d manifest = .ok source) : d.readText manifest = .ok source.manifestText := by
  rw [loadBy] at h
  split at h
  · cases h
  · rename_i text htext
    split at h
    · cases h
    · cases h
      exact htext

theorem Provider.loadFromDisk_succeeds {manifest text root : String}
    (htext : d.readText manifest = .ok text) (hroot : Path.parent? manifest = some root) :
    ∃ source, loadFromDisk d manifest = .ok source := by
  simp [loadFromDisk, loadBy, htext, hroot, pure, Except.pure]

/-- What is listed as a document of a project on disk has the extension of one. -/
theorem Provider.hasExtension_of_loadFromDisk {manifest : String} {source : ProjectSource}
    (h : loadFromDisk d manifest = .ok source) {path : String} (hpath : path ∈ source.documents) :
    Path.hasExtension path "cs" = true := by
  rw [loadFromDisk, loadBy] at h
  split at h
  · cases h
  · split at h
    · cases h
    · simp only [List.partition_eq_filter_filter] at h
      cases h
      exact (List.mem_filter.mp hpath).2

/-- The documents of a project on disk are files of the disk. -/
theorem Provider.mem_files_of_loadFromDisk (hd : d.FilesNamed) {manifest : Place}
    (hm : manifest.Named) {source : ProjectSource} (h : loadFromDisk d manifest.path = .ok source)
    {path : String} (hpath : path ∈ source.documents) : ∃ e ∈ d.files, path = e.1.path := by
  obtain ⟨root, hroot, -, hfiles⟩ := loadFromDisk_ok h
  have hne : manifest ≠ [] := by
    rintro rfl
    have hnone : Path.parent? (Place.path []) = none := by decide
    rw [hnone] at hroot
    cases hroot
  rw [Path.parent?_path hm hne] at hroot
  cases hroot
  exact Scan.mem_files_of_mem_paths hd hm.dropLast ((hfiles path).mp (List.mem_append_left _ hpath))

/-- The documents of a project on disk are listed in plain spelling. -/
theorem Provider.tidy_of_loadFromDisk (hd : d.FilesNamed) {manifest : Place} (hm : manifest.Named)
    {source : ProjectSource} (h : loadFromDisk d manifest.path = .ok source) {path : String}
    (hpath : path ∈ source.documents) : Path.tidy path = path := by
  obtain ⟨e, he, rfl⟩ := mem_files_of_loadFromDisk hd hm h hpath
  exact Path.tidy_path (hd e he)

end SolutionAtlas
