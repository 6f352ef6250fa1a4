-- SUMMARY: A cached solution holds as long as what it was made from is as it was.
import Mathlib
import SolutionAtlas.Analysis.Cache
import SolutionAtlas.Proofs.Distinct
import SolutionAtlas.Proofs.Disk.Folders
import SolutionAtlas.Proofs.Model.Codec
import SolutionAtlas.Proofs.Path.Relative

/-!
# What a cache holds

The contents of an entry are read back as they were written. So a cache that is asked for a path again
finds the entry it made, and all that is left is whether the entry still holds: its times and its list of
source files are compared with the disk as it is now.
-/

namespace SolutionAtlas

/-! ## Lists of inputs -/

/-- Lists of texts that are sorted and have each text once are told apart by what is in them. -/
theorem sorted_firstOfEach_eq_iff {xs ys : List String} :
    ((firstOfEach id xs).mergeSort fun a b => a ≤ b) = ((firstOfEach id ys).mergeSort fun a b => a ≤ b) ↔
      ∀ x, x ∈ xs ↔ x ∈ ys := by
  rw [← firstOfEach_perm]
  constructor
  · intro h
    have hperm := List.mergeSort_perm (firstOfEach id xs) fun a b => decide (a ≤ b)
    rw [h] at hperm
    exact hperm.symm.trans (List.mergeSort_perm _ _)
  · intro h
    refine List.Perm.eq_of_sortedLE List.sortedLE_mergeSort List.sortedLE_mergeSort ?_
    exact ((List.mergeSort_perm _ _).trans h).trans (List.mergeSort_perm _ _).symm

theorem foldl_max_le {n start : Nat} {times : List Nat} :
    times.foldl max start ≤ n ↔ start ≤ n ∧ ∀ t ∈ times, t ≤ n := by
  induction times generalizing start with
  | nil => simp
  | cons t times ih =>
    rw [List.foldl_cons, ih, max_le_iff, List.forall_mem_cons, and_assoc]

/-! ## Contents of entries -/

open Json in
def CachedSolution.shape : Shape CachedSolution :=
  ⟨CachedSolution.mk,
    .word32 "schema_version" (·.schemaVersion) <| .required "created_at_unix_ms" (·.createdMs) <|
    .required "source_path" (·.sourcePath) <| .required "input_files" (·.inputFiles) <|
    .required "solution" (·.solution) .nil,
    fun _ => rfl, by decide⟩

open Json in
instance : Lawful CachedSolution :=
  .ofShape CachedSolution.shape (fun _ => rfl) (fun _ => rfl) rfl

theorem Text.fromUTF8?_toUTF8 (s : String) : String.fromUTF8? s.toUTF8 = some s := by
  simp [String.fromUTF8?, s.isValidUTF8, String.fromUTF8]

namespace CachedSolution

theorem read?_write {e : CachedSolution} (h : Json.Lawful.Fits e) : read? e.write = some e := by
  have hround := (Json.roundTrips CachedSolution (by decide +kernel) e h).2.1
  rw [Option.bind_eq_some_iff] at hround
  obtain ⟨j, hj, he⟩ := hround
  simp only [read?, write, Text.fromUTF8?_toUTF8, Option.bind_eq_bind, Option.bind_some, hj, he]

end CachedSolution

/-! ## Inputs -/

namespace Disk

variable {d : Disk}

/-- There is something at a path, and its last change was not after a time. -/
def UnchangedSince (d : Disk) (t : Nat) (path : String) : Prop :=
  ∃ u, d.modifiedMs path = .ok u ∧ u ≤ t

instance (d : Disk) (t : Nat) (path : String) : Decidable (d.UnchangedSince t path) :=
  decidable_of_iff ((d.modifiedMs path).toOption.any (· ≤ t) = true) <| by
    rw [UnchangedSince]
    cases d.modifiedMs path <;> simp [Except.toOption]

end Disk

namespace CacheInputs

variable {d d₀ d₁ : Disk} {t : Nat} {path : String} {s : Solution}

theorem files_eq_iff (hplain₀ : ∀ file ∈ sources d₀ s, '\\' ∉ file.toList)
    (hplain₁ : ∀ file ∈ sources d₁ s, '\\' ∉ file.toList) :
    (scan d₁ path s).files = (scan d₀ path s).files ↔
      ∀ file, file ∈ sources d₁ s ↔ file ∈ sources d₀ s := by
  have hspelled {d : Disk} (h : ∀ file ∈ sources d s, '\\' ∉ file.toList) :
      (sources d s).map Text.forwardSlashes = sources d s :=
    (List.map_congr_left fun file hfile => Text.forwardSlashes_eq_self (h file hfile)).trans
      (List.map_id _)
  simp only [scan, hspelled hplain₀, hspelled hplain₁]
  exact sorted_firstOfEach_eq_iff

theorem manifestChangedMs_le (ht : t < maxWord64) :
    manifestChangedMs d path ≤ t ↔ d.UnchangedSince t path := by
  rw [manifestChangedMs, Disk.UnchangedSince]
  cases d.modifiedMs path with
  | error e => simpa [Except.toOption] using ht
  | ok u => simp [Except.toOption]

theorem sourceChangedMs_le {u : Nat} (h : d.modifiedMs path = .ok u) :
    sourceChangedMs d path ≤ t ↔ d.UnchangedSince t path := by
  simp [sourceChangedMs, Disk.UnchangedSince, h, Except.toOption]

theorem modifiedMs_of_mem_sources (hnamed : d.FilesNamed) (hfolders : d.FoldersHold)
    (h : path ∈ sources d s) : ∃ u, d.modifiedMs path = .ok u := by
  obtain ⟨root, -, hlisted⟩ := List.mem_flatMap.mp h
  exact Scan.modifiedMs_of_mem_paths hnamed hfolders (List.mem_of_mem_filter hlisted)

theorem newestMs_le (hnamed : d.FilesNamed) (hfolders : d.FoldersHold) (ht : t < maxWord64) :
    (scan d path s).newestMs ≤ t ↔
      (∀ file ∈ manifests d path s, d.UnchangedSince t file) ∧
        ∀ file ∈ sources d s, d.UnchangedSince t file := by
  simp only [scan, foldl_max_le, Nat.zero_le, true_and, List.forall_mem_append, List.forall_mem_map,
    manifestChangedMs_le ht]
  refine and_congr_right fun _ => forall₂_congr fun file hfile => ?_
  obtain ⟨u, hu⟩ := modifiedMs_of_mem_sources hnamed hfolders hfile
  exact sourceChangedMs_le hu

theorem forall_mem_manifests {P : String → Prop} :
    (∀ file ∈ manifests d path s, P file) ↔
      (d.isFolder path = false → P path) ∧ ∀ p ∈ s.projects, P p.projectFilePath := by
  rw [manifests, List.forall_mem_append, List.forall_mem_map]
  cases d.isFolder path <;> simp

end CacheInputs

/-! ## Entries -/

namespace Disk

variable {d d' : Disk} {now : Nat} {path : String} {data : FileData}

theorem write_ok (h : d.write now path data = .ok d') :
    d'.files = d.files.filter (·.1 != wouldBe path) ++ [(wouldBe path, data)] := by
  simp only [Disk.write] at h
  generalize wouldBe path = p at h ⊢
  split at h
  · cases h
  · split at h
    · cases h
    · cases h
      rw [files_addFolder]

theorem lookup_write (h : d.write now path data = .ok d') :
    d'.files.lookup (wouldBe path) = some data := by
  have hgone : (d.files.filter (·.1 != wouldBe path)).lookup (wouldBe path) = none := by
    refine List.lookup_eq_none_iff.mpr fun e he => ?_
    have hne := (List.mem_filter.mp he).2
    rwa [bne_comm]
  rw [write_ok h, List.lookup_append, hgone]
  simp

theorem lookup_write_of_ne (h : d.write now path data = .ok d') {q : Place} (hq : q ≠ wouldBe path) :
    d'.files.lookup q = d.files.lookup q := by
  rw [write_ok h, List.lookup_append, lookup_filter_keys (f := (· != wouldBe path)) (by simpa using hq),
    List.lookup_cons, beq_false_of_ne hq]
  exact Option.or_none

end Disk

namespace SolutionCache

variable {c : SolutionCache} {d d₀ d₁ d' : Disk} {t₀ t₁ now : Nat} {path : String} {s : Solution}

/-- What a solution was made from is as it was when it was kept: it is not too old, the same source files
are there, and neither they nor the files that the solution is declared in have changed. -/
structure Untouched (c : SolutionCache) (d₀ : Disk) (t₀ : Nat) (d₁ : Disk) (t₁ : Nat) (path : String)
    (s : Solution) : Prop where
  young : t₁ - t₀ ≤ c.ttlSecs * 1000
  same_sources : ∀ file, file ∈ CacheInputs.sources d₁ s ↔ file ∈ CacheInputs.sources d₀ s
  path_unchanged : d₁.isFolder path = false → d₁.UnchangedSince t₀ path
  manifests_unchanged : ∀ p ∈ s.projects, d₁.UnchangedSince t₀ p.projectFilePath
  sources_unchanged : ∀ file ∈ CacheInputs.sources d₁ s, d₁.UnchangedSince t₀ file

theorem isFresh_iff {e : CachedSolution} :
    c.isFresh d now path e = true ↔
      e.schemaVersion = CachedSolution.currentVersion ∧ now - e.createdMs ≤ c.ttlSecs * 1000 ∧
        (CacheInputs.scan d path e.solution).files = e.inputFiles ∧
        (CacheInputs.scan d path e.solution).newestMs ≤ e.createdMs := by
  simp [isFresh, and_assoc]

theorem isFresh_entryNow (hnamed : d₁.FilesNamed) (hfolders : d₁.FoldersHold) (ht : t₀ < maxWord64)
    (hplain₀ : ∀ file ∈ CacheInputs.sources d₀ s, '\\' ∉ file.toList)
    (hplain₁ : ∀ file ∈ CacheInputs.sources d₁ s, '\\' ∉ file.toList) :
    c.isFresh d₁ t₁ path (entryNow d₀ t₀ path s) = true ↔ c.Untouched d₀ t₀ d₁ t₁ path s := by
  simp only [isFresh_iff, entryNow, true_and, CacheInputs.files_eq_iff hplain₀ hplain₁,
    CacheInputs.newestMs_le hnamed hfolders ht, CacheInputs.forall_mem_manifests]
  constructor
  · rintro ⟨hyoung, hsame, ⟨hpath, hmanifests⟩, hsources⟩
    exact ⟨hyoung, hsame, hpath, hmanifests, hsources⟩
  · rintro ⟨hyoung, hsame, hpath, hmanifests, hsources⟩
    exact ⟨hyoung, hsame, ⟨hpath, hmanifests⟩, hsources⟩

theorem fits_entryNow (hs : Json.Lawful.Fits s) (ht : t₀ < maxWord64) :
    Json.Lawful.Fits (entryNow d₀ t₀ path s) := by
  have hversion : CachedSolution.currentVersion ≤ maxWord32 := by decide
  have hcreated : t₀ ≤ maxWord64 := ht.le
  simp only [Json.Lawful.Fits, CachedSolution.shape, Json.Shape.slots, Json.Slots.slots_word32,
    Json.Slots.slots_required, Json.Slots.slots_nil, List.forall_mem_cons]
  exact ⟨hversion, hcreated, trivial, fun _ _ => trivial, hs, List.forall_mem_nil _⟩

theorem load_of_readBytes {e : CachedSolution} (he : Json.Lawful.Fits e)
    (h : d.readBytes (c.entryPath d path) = .ok e.write) :
    c.load d now path = .ok (if c.isFresh d now path e then some e.solution else none) := by
  have hholds : d.holds (c.entryPath d path) = true := by
    rw [Disk.holds]
    cases hfind : d.find (c.entryPath d path) with
    | error err =>
      rw [Disk.readBytes, hfind] at h
      cases h
    | ok entry => rfl
  rw [load, if_pos hholds, h]
  dsimp only
  rw [CachedSolution.read?_write he, Option.filter_some]
  split <;> rfl

theorem load_of_not_holds (h : d.holds (c.entryPath d path) = false) : c.load d now path = .ok none := by
  simp [load, h]

theorem store_ok (hfolder : d.makeFolder t₀ c.dir = .ok d₀) (h : c.store d t₀ path s = .ok d') :
    d₀.write t₀ (c.entryPath d₀ path) ⟨(entryNow d₀ t₀ path s).write, t₀⟩ = .ok d' := by
  rw [store, hfolder] at h
  simp only [Bind.bind, Except.bind] at h
  cases hwrite : d₀.write t₀ (c.entryPath d₀ path) ⟨(entryNow d₀ t₀ path s).write, t₀⟩ with
  | error e =>
    rw [hwrite] at h
    cases h
  | ok d'' =>
    rw [hwrite] at h
    cases h
    rfl

/-- The file that a path named on one disk has the same contents on a later one. -/
def Intact (d' d₁ : Disk) (file : String) : Prop :=
  ∃ data, d'.files.lookup (Disk.wouldBe file) = some data ∧ d₁.readBytes file = .ok data.bytes

section Stored

variable (hfolder : d.makeFolder t₀ c.dir = .ok d₀) (hstore : c.store d t₀ path s = .ok d')

include hfolder hstore

theorem filesNamed_store (h : d.FilesNamed) : d'.FilesNamed :=
  (h.makeFolder hfolder).write (store_ok hfolder hstore)

theorem foldersHold_store (h : d.FoldersHold) : d'.FoldersHold :=
  (h.makeFolder hfolder).write (store_ok hfolder hstore)

/-- An entry is intact when its path still leads to its place, and the file there is the same. -/
theorem intact_of_lookup
    (hat : d₁.locate (c.entryPath d₀ path) = .ok (Disk.wouldBe (c.entryPath d₀ path)))
    (hsame : d₁.files.lookup (Disk.wouldBe (c.entryPath d₀ path)) =
      d'.files.lookup (Disk.wouldBe (c.entryPath d₀ path))) : Intact d' d₁ (c.entryPath d₀ path) := by
  have hthere := Disk.lookup_write (store_ok hfolder hstore)
  exact ⟨_, hthere, Disk.readBytes_of_locate hat (hsame.trans hthere)⟩

end Stored

/-- A path that is known by the same spelling leads to the same entry. -/
theorem entryPath_eq (h : sourcePath d₁ path = sourcePath d₀ path) :
    c.entryPath d₁ path = c.entryPath d₀ path := by
  rw [entryPath, entryPath, h]

/-- On disks without links, a path is known by the same spelling when it names something on both, or on
neither. -/
theorem sourcePath_eq (h : (d₁.canonical path).toOption.isSome = (d₀.canonical path).toOption.isSome) :
    sourcePath d₁ path = sourcePath d₀ path := by
  have hsame : (d₁.canonical path).toOption = (d₀.canonical path).toOption := by
    cases h₁ : d₁.canonical path with
    | error e₁ =>
      cases h₀ : d₀.canonical path with
      | error e₀ => rfl
      | ok full₀ =>
        rw [h₁, h₀] at h
        cases h
    | ok full₁ =>
      cases h₀ : d₀.canonical path with
      | error e₀ =>
        rw [h₁, h₀] at h
        cases h
      | ok full₀ => rw [Disk.eq_path_of_canonical h₁, Disk.eq_path_of_canonical h₀]
  rw [sourcePath, sourcePath, hsame]

/-- What a load comes to when the entry is intact. -/
theorem load_of_intact (hfits : Json.Lawful.Fits s) (ht : t₀ < maxWord64)
    (hfolder : d.makeFolder t₀ c.dir = .ok d₀) (hstore : c.store d t₀ path s = .ok d')
    (hentry : c.entryPath d₁ path = c.entryPath d₀ path) (hintact : Intact d' d₁ (c.entryPath d₀ path)) :
    c.load d₁ t₁ path = .ok (if c.isFresh d₁ t₁ path (entryNow d₀ t₀ path s) then some s else none) := by
  obtain ⟨data, hthere, hread⟩ := hintact
  rw [Disk.lookup_write (store_ok hfolder hstore), Option.some.injEq] at hthere
  subst hthere
  rw [← hentry] at hread
  exact load_of_readBytes (fits_entryNow hfits ht) hread

namespace Example

def cache : SolutionCache := ⟨"/tmp/cache", 60⟩

def text (s : String) (modifiedMs : Nat) : FileData := ⟨s.toUTF8, modifiedMs⟩

def solution : Solution where
  name := "S"
  path := "/ws/P"
  projects := [{ name := "P", projectFilePath := "/ws/P/P.csproj", rootDirectories := ["/ws/P/src"] }]

/-- The disk before anything is kept. -/
def before : Disk where
  folders := [(["tmp"], 1), (["ws"], 1), (["ws", "P"], 1), (["ws", "P", "src"], 1)]
  files := [(["ws", "P", "P.csproj"], text "<Project />" 10),
    (["ws", "P", "src", "K.cs"], text "class K { }" 20)]

/-- The disk with the directory of the cache. -/
def prepared : Disk := (before.makeFolder 1000 cache.dir).toOption.getD {}

/-- The disk with the entry for a path. -/
def kept (path : String) : Disk := (cache.store before 1000 path solution).toOption.getD {}

/-- The source file is written again, with an old time of change. -/
def edited : Disk :=
  ((kept "/ws/P").write 2000 "/ws/P/src/K.cs" (text "class K { int x; }" 500)).toOption.getD {}

/-- An entry was made for a path that named nothing, and now the path names a folder. -/
def named : Disk := ((kept "/ws/./Q").makeFolder 2000 "/ws/Q").toOption.getD {}

/-- Where the entry for a path is. -/
def entry (path : String) : String := cache.entryPath prepared path

theorem ok_of_isSome {ε α : Type} {x : Except ε α} {default : α} (h : x.toOption.isSome = true) :
    x = .ok (x.toOption.getD default) := by
  cases x with
  | error e => cases h
  | ok y => rfl

theorem makeFolder_before : before.makeFolder 1000 cache.dir = .ok prepared := rfl

theorem sources_prepared : CacheInputs.sources prepared solution = ["/ws/P/src/K.cs"] := by
  decide +kernel

theorem fits_solution : Json.Lawful.Fits solution := by
  simp [Json.Lawful.Fits, Solution.shape, Project.shape, Statistics.shape, Conventions.shape,
    Json.Slot.ofRequired, Json.Slot.ofSome, solution]

/-- The changes succeed and leave the entry in its place. -/
theorem run_edited :
    (cache.store before 1000 "/ws/P" solution).toOption.isSome = true ∧
      ((kept "/ws/P").write 2000 "/ws/P/src/K.cs"
        (text "class K { int x; }" 500)).toOption.isSome = true ∧
      edited.locate (entry "/ws/P") = .ok (Disk.wouldBe (entry "/ws/P")) ∧
      Disk.wouldBe (entry "/ws/P") ≠ Disk.wouldBe "/ws/P/src/K.cs" ∧
      CacheInputs.sources edited solution = ["/ws/P/src/K.cs"] ∧
      edited.isFolder "/ws/P" = true ∧ edited.UnchangedSince 1000 "/ws/P/P.csproj" ∧
      edited.UnchangedSince 1000 "/ws/P/src/K.cs" := by
  decide +kernel

theorem run_named :
    (cache.store before 1000 "/ws/./Q" solution).toOption.isSome = true ∧
      ((kept "/ws/./Q").makeFolder 2000 "/ws/Q").toOption.isSome = true ∧
      named.locate (entry "/ws/./Q") = .ok (Disk.wouldBe (entry "/ws/./Q")) ∧
      named.holds (cache.entryPath named "/ws/./Q") = false ∧
      CacheInputs.sources named solution = ["/ws/P/src/K.cs"] ∧
      named.isFolder "/ws/./Q" = true ∧ named.UnchangedSince 1000 "/ws/P/P.csproj" ∧
      named.UnchangedSince 1000 "/ws/P/src/K.cs" := by
  decide +kernel

theorem store_before : cache.store before 1000 "/ws/P" solution = .ok (kept "/ws/P") :=
  ok_of_isSome run_edited.1

theorem write_kept :
    (kept "/ws/P").write 2000 "/ws/P/src/K.cs" (text "class K { int x; }" 500) = .ok edited :=
  ok_of_isSome run_edited.2.1

theorem store_named : cache.store before 1000 "/ws/./Q" solution = .ok (kept "/ws/./Q") :=
  ok_of_isSome run_named.1

theorem makeFolder_named : (kept "/ws/./Q").makeFolder 2000 "/ws/Q" = .ok named :=
  ok_of_isSome run_named.2.1

theorem filesNamed_edited : edited.FilesNamed := by
  have hbefore : before.FilesNamed := by
    simp only [Disk.FilesNamed, before, List.forall_mem_cons]
    decide
  exact (filesNamed_store makeFolder_before store_before hbefore).write write_kept

theorem foldersHold_edited : edited.FoldersHold := by
  have hbefore : before.FoldersHold := by decide +kernel
  exact (foldersHold_store makeFolder_before store_before hbefore).write write_kept

theorem intact_edited : Intact (kept "/ws/P") edited (entry "/ws/P") := by
  obtain ⟨-, -, hat, hne, -⟩ := run_edited
  exact intact_of_lookup makeFolder_before store_before hat (Disk.lookup_write_of_ne write_kept hne)

theorem intact_named : Intact (kept "/ws/./Q") named (entry "/ws/./Q") := by
  obtain ⟨-, -, hat, -⟩ := run_named
  refine intact_of_lookup makeFolder_before store_named hat ?_
  rw [Disk.files_makeFolder makeFolder_named]

/-- When the source file, the manifest and the folder are there with old times, nothing has changed. -/
theorem untouched_of {d : Disk} {path : String}
    (hsources : CacheInputs.sources d solution = ["/ws/P/src/K.cs"])
    (hfolder : d.isFolder path = true) (hmanifest : d.UnchangedSince 1000 "/ws/P/P.csproj")
    (hsource : d.UnchangedSince 1000 "/ws/P/src/K.cs") :
    cache.Untouched prepared 1000 d 2000 path solution where
  young := by decide
  same_sources file := by rw [sources_prepared, hsources]
  path_unchanged h := by simp [hfolder] at h
  manifests_unchanged := by simpa [solution] using hmanifest
  sources_unchanged := by simpa [hsources] using hsource

theorem untouched_edited : cache.Untouched prepared 1000 edited 2000 "/ws/P" solution := by
  obtain ⟨-, -, -, -, hsources, hfolder, hmanifest, hsource⟩ := run_edited
  exact untouched_of hsources hfolder hmanifest hsource

theorem untouched_named : cache.Untouched prepared 1000 named 2000 "/ws/./Q" solution := by
  obtain ⟨-, -, -, -, hsources, hfolder, hmanifest, hsource⟩ := run_named
  exact untouched_of hsources hfolder hmanifest hsource

end Example

/-- A solution that was kept is given back as it was exactly as long as what it was made from is as it was
then; otherwise nothing is given. The path has to lead to the same entry as before, which it does while it
is known by the same spelling: the same canonical path, or its own where there is none. -/
theorem load_of_store (hfits : Json.Lawful.Fits s) (ht : t₀ < maxWord64)
    (hfolder : d.makeFolder t₀ c.dir = .ok d₀) (hstore : c.store d t₀ path s = .ok d')
    (hplain₀ : ∀ file ∈ CacheInputs.sources d₀ s, '\\' ∉ file.toList)
    (hnamed : d₁.FilesNamed) (hfolders : d₁.FoldersHold)
    (hplain₁ : ∀ file ∈ CacheInputs.sources d₁ s, '\\' ∉ file.toList)
    (hentry : c.entryPath d₁ path = c.entryPath d₀ path) (hintact : Intact d' d₁ (c.entryPath d₀ path)) :
    (c.Untouched d₀ t₀ d₁ t₁ path s → c.load d₁ t₁ path = .ok (some s)) ∧
      (¬ c.Untouched d₀ t₀ d₁ t₁ path s → c.load d₁ t₁ path = .ok none) := by
  have hload : c.load d₁ t₁ path = _ := load_of_intact hfits ht hfolder hstore hentry hintact
  have hfresh : c.isFresh d₁ t₁ path (entryNow d₀ t₀ path s) = true ↔ _ :=
    isFresh_entryNow hnamed hfolders ht hplain₀ hplain₁
  constructor
  · intro h
    rw [hload, if_pos (hfresh.mpr h)]
  · intro h
    rw [hload, if_neg fun hf => h (hfresh.mp hf)]

/-- A source file that is changed with an old time does not matter; an entry that is too old does not hold. -/
theorem load_of_store_edited :
    let c := Example.cache
    let s := Example.solution
    c.store Example.before 1000 "/ws/P" s = .ok (Example.kept "/ws/P") ∧
      c.Untouched Example.prepared 1000 Example.edited 2000 "/ws/P" s ∧
      c.load Example.edited 2000 "/ws/P" = .ok (some s) ∧
      ¬c.Untouched Example.prepared 1000 Example.edited 70000 "/ws/P" s ∧
      c.load Example.edited 70000 "/ws/P" = .ok none := by
  intro c s
  have hplain : ∀ file ∈ ["/ws/P/src/K.cs"], '\\' ∉ file.toList := by decide +kernel
  obtain ⟨-, -, -, -, hsources, -⟩ := Example.run_edited
  have hentry : c.entryPath Example.edited "/ws/P" = c.entryPath Example.prepared "/ws/P" :=
    entryPath_eq (sourcePath_eq (by decide +kernel))
  have hload (t : Nat) : (c.Untouched _ 1000 _ t "/ws/P" s → _) ∧ (¬c.Untouched _ 1000 _ t "/ws/P" s → _) :=
    load_of_store Example.fits_solution (by decide) Example.makeFolder_before Example.store_before
      (Example.sources_prepared ▸ hplain) Example.filesNamed_edited Example.foldersHold_edited
      (hsources ▸ hplain) hentry Example.intact_edited
  have hexpired : ¬c.Untouched Example.prepared 1000 Example.edited 70000 "/ws/P" s :=
    fun h => absurd h.young (by decide)
  exact ⟨Example.store_before, Example.untouched_edited, (hload 2000).1 Example.untouched_edited,
    hexpired, (hload 70000).2 hexpired⟩

/-- A path that names nothing is known by its own spelling. Once it names a folder it is known by that of
the folder, and what was kept for it is not found, though nothing of it has changed. -/
theorem load_misses_renamed :
    let c := Example.cache
    let s := Example.solution
    c.store Example.before 1000 "/ws/./Q" s = .ok (Example.kept "/ws/./Q") ∧
      (Example.kept "/ws/./Q").makeFolder 2000 "/ws/Q" = .ok Example.named ∧
      Intact (Example.kept "/ws/./Q") Example.named (c.entryPath Example.prepared "/ws/./Q") ∧
      c.Untouched Example.prepared 1000 Example.named 2000 "/ws/./Q" s ∧
      c.load Example.named 2000 "/ws/./Q" = .ok none := by
  obtain ⟨-, -, -, hmissing, -⟩ := Example.run_named
  exact ⟨Example.store_named, Example.makeFolder_named, Example.intact_named, Example.untouched_named,
    load_of_not_holds hmissing⟩

end SolutionCache

end SolutionAtlas
