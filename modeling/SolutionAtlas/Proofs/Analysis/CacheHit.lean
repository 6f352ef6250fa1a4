-- SUMMARY: The projects of a cached solution against those that an analysis finds now.
import Mathlib
import SolutionAtlas.Proofs.Analysis.Cache
import SolutionAtlas.Proofs.Analysis.Coverage

/-!
# What a hit covers

A cached solution is given back as long as the manifests of its projects are as they were. So all its
projects are still there. But nothing is asked about projects that it does not have: a manifest that has
come to be since then does not end the entry, though the same path stands for its project now.
-/

namespace SolutionAtlas

/-! ## Names of entries -/

namespace Sha256

theorem slash_not_mem_toDigits (n : Nat) : '/' ∉ Nat.toDigits 16 n := by
  have hdigit {k : Nat} (hk : k < 16) : '/' ∉ [Nat.digitChar k] := by
    interval_cases k <;> decide
  induction n using Nat.strongRecOn with
  | ind n ih =>
    rw [Nat.toDigits_eq_if (by decide)]
    split
    · rename_i hn
      exact hdigit hn
    · rename_i hn
      rw [List.mem_append, not_or]
      exact ⟨ih (n / 16) (by omega), hdigit (Nat.mod_lt n (by decide))⟩

theorem slash_not_mem_hexDigest (message : List UInt8) : '/' ∉ (hexDigest message).toList := by
  simp only [hexDigest, String.toList_ofList, List.mem_flatMap, not_exists, not_and]
  intro w _ h
  rcases List.mem_append.mp h with h | h
  · cases List.eq_of_mem_replicate h
  · exact slash_not_mem_toDigits _ h

end Sha256

theorem Path.isName_of_extension {name : String} {front : List Char}
    (hname : name.toList = front ++ ".json".toList) (hslash : '/' ∉ name.toList) : IsName name := by
  have hlength : name.toList.length = front.length + 5 := by rw [hname, List.length_append]; rfl
  refine ⟨?_, ?_, hslash⟩
  · rw [Bool.eq_false_iff]
    intro hfiller
    rcases Bool.or_eq_true_iff.mp hfiller with hempty | hdot
    · rw [String.isEmpty_iff.mp hempty] at hlength
      cases hlength
    · rw [beq_iff_eq.mp hdot] at hlength
      simp at hlength
  · rintro rfl
    simp at hlength

/-- The name of an entry is proper, and ends as those of entries do. -/
theorem SolutionCache.exists_entryPath_eq (c : SolutionCache) (d : Disk) (path : String) :
    ∃ name front, Path.IsName name ∧ name.toList = front ++ ".json".toList ∧
      c.entryPath d path = Path.join c.dir name := by
  let digest := Sha256.hexDigest (sourcePath d path).toUTF8.data.toList
  let name := String.ofList (digest.toList.take 16) ++ ".json"
  have hname : name.toList = digest.toList.take 16 ++ ".json".toList := by
    rw [String.toList_append, String.toList_ofList]
  have hslash : '/' ∉ name.toList := by
    rw [hname, List.mem_append, not_or]
    exact ⟨fun h => Sha256.slash_not_mem_hexDigest _ (List.mem_of_mem_take h), by decide⟩
  exact ⟨name, _, Path.isName_of_extension hname hslash, hname, rfl⟩

theorem Path.hasExtension_json {p : Place} (hp : p.Named) {name extension : String} {front : List Char}
    (hlast : p.getLast? = some name) (hname : name.toList = front ++ ".json".toList)
    (h : hasExtension p.path extension = true) : Text.eqIgnoreCase "json" extension = true := by
  have hfile : fileName? p.path = some name := by
    have hcomponents : (components p.path).getLast? = some (.name name) := by
      rw [components_path hp, List.getLast?_cons, List.getLast?_map, hlast]
      rfl
    rw [fileName?, hcomponents]
  have hafter : Text.afterLast '.' name.toList = "json".toList := by
    rw [hname, Text.afterLast, List.reverse_append]
    simp [List.takeWhile]
  have hdot : name.toList.contains '.' = true := by simp [hname]
  simp only [hasExtension, extension?, hfile, Option.bind_some, splitExtension, hdot, if_true, hafter] at h
  split at h
  · rename_i e he
    split at he
    · cases he
    · cases he
      simpa using h
  · cases h

/-- An entry is not written over a solution file or a manifest. -/
theorem SolutionCache.wouldBe_entryPath_ne (c : SolutionCache) (d : Disk) (path : String) {p : Place}
    (hp : p.Named) {extension : String} (h : Path.hasExtension p.path extension = true)
    (hother : Text.eqIgnoreCase "json" extension = false) : p ≠ Disk.wouldBe (c.entryPath d path) := by
  intro heq
  obtain ⟨name, front, hproper, hname, hentry⟩ := c.exists_entryPath_eq d path
  have hlast : p.getLast? = some name := by rw [heq, hentry, Disk.getLast?_wouldBe_join hproper]
  rw [Path.hasExtension_json hp hlast hname h] at hother
  cases hother

/-! ## Disks later on -/

/-- A change is made after a given time, and what it writes bears a later time. -/
def FileEdit.MadeAfter (t : Nat) : FileEdit → Prop
  | .write now _ data => t < now ∧ t < data.modifiedMs
  | .makeFolder now _ => t < now
  | .remove _ => True

namespace Disk

variable {d d' : Disk} {path text : String} {t : Nat}

/-- What is on a later disk was there before, or has changed after a given time. -/
def ChangedAfter (d : Disk) (t : Nat) (d' : Disk) : Prop :=
  ∀ p e, d'.entryAt? p = some e → d.entryAt? p = some e ∨ t < e.modifiedMs

theorem folders_write {now : Nat} {data : FileData} (h : d.write now path data = .ok d') :
    d'.folders = (d.addFolder now (wouldBe path).dropLast).folders := by
  simp only [Disk.write] at h
  generalize wouldBe path = p at h ⊢
  split at h
  · cases h
  · split at h
    · cases h
    · cases h
      rfl

/-- Only what is outside of a place is left once all keys in it are taken out. -/
theorem lookup_filter_outside {β : Type} {p q : Place} {x : β} {entries : List (Place × β)}
    (h : (entries.filter fun e => !p.isPrefixOf e.1).lookup q = some x) :
    (!p.isPrefixOf q) = true ∧ entries.lookup q = some x := by
  by_cases hout : (!p.isPrefixOf q) = true
  · exact ⟨hout, by rwa [lookup_filter_keys (f := fun r => !p.isPrefixOf r) hout] at h⟩
  · have hnone : (entries.filter fun e => !p.isPrefixOf e.1).lookup q = none := by
      refine List.lookup_eq_none_iff.mpr fun e he => bne_iff_ne.mpr ?_
      rintro rfl
      exact hout (List.mem_filter.mp he).2
    rw [hnone] at h
    cases h

/-- What is there when one folder is added was there, or is the folder. -/
theorem entryAt?_of_added {now : Nat} {p q : Place} {e : Entry}
    (h : Disk.entryAt? { d with folders := d.folders ++ [(p, now)] } q = some e) :
    d.entryAt? q = some e ∨ e = .folder now := by
  cases e with
  | file data =>
    have hdata := entryAt?_eq_file.mp h
    exact .inl (entryAt?_eq_file.mpr hdata)
  | folder u =>
    obtain ⟨hfree, hu⟩ := entryAt?_eq_folder.mp h
    rw [entryAt?_eq_folder]
    split at hu
    · rename_i hroot
      exact .inl ⟨hfree, by rwa [if_pos hroot]⟩
    · rename_i hroot
      rw [List.lookup_append, Option.or_eq_some_iff] at hu
      rcases hu with hthere | ⟨-, hnew⟩
      · exact .inl ⟨hfree, by rwa [if_neg hroot]⟩
      · rw [List.lookup_cons] at hnew
        split at hnew
        · cases hnew
          exact .inr rfl
        · cases hnew

namespace ChangedAfter

theorem refl (d : Disk) (t : Nat) : d.ChangedAfter t d :=
  fun _ _ he => .inl he

theorem trans {d'' : Disk} (h : d.ChangedAfter t d') (h' : d'.ChangedAfter t d'') :
    d.ChangedAfter t d'' :=
  fun p e he => (h' p e he).elim (h p e) .inr

theorem addFolder {now : Nat} (hnow : t < now) (p : Place) : d.ChangedAfter t (d.addFolder now p) := by
  rw [Disk.addFolder]
  generalize above p ++ [p] = places
  induction places generalizing d with
  | nil => exact refl d t
  | cons q places ih =>
    rw [List.foldl_cons]
    split
    · exact ih
    · refine .trans (fun r e he => (entryAt?_of_added he).imp_right ?_) ih
      rintro rfl
      exact hnow

theorem makeFolder {now : Nat} (hnow : t < now) (h : d.makeFolder now path = .ok d') :
    d.ChangedAfter t d' := by
  rcases makeFolder_cases h with rfl | ⟨p, rfl, -⟩
  · exact refl _ t
  · exact addFolder hnow p

theorem write {now : Nat} {data : FileData} (hnow : t < now) (hdata : t < data.modifiedMs)
    (h : d.write now path data = .ok d') : d.ChangedAfter t d' := by
  intro p e he
  by_cases hp : p = wouldBe path
  · rw [hp, entryAt?_eq_file.mpr (lookup_write h)] at he
    exact .inr (Option.some.inj he ▸ hdata)
  · have hsame : d'.entryAt? p = (d.addFolder now (wouldBe path).dropLast).entryAt? p := by
      rw [entryAt?, entryAt?, lookup_write_of_ne h hp, files_addFolder, folders_write h]
    exact addFolder hnow _ p e (hsame ▸ he)

theorem remove (hfolders : d.FoldersHold) (h : d.remove path = .ok d') : d.ChangedAfter t d' := by
  rw [Disk.remove] at h
  cases hp : d.locate path with
  | error err =>
    rw [hp] at h
    cases h
  | ok p =>
    rw [hp] at h
    cases h
    intro q e he
    cases e with
    | file data => exact .inl (entryAt?_eq_file.mpr (lookup_filter_outside (entryAt?_eq_file.mp he)).2)
    | folder u =>
      obtain ⟨hfree, hu⟩ := entryAt?_eq_folder.mp he
      rw [entryAt?_eq_folder]
      split at hu
      · rename_i hroot
        refine .inl ⟨List.lookup_eq_none_iff.mpr fun e he => ?_, by rwa [if_pos hroot]⟩
        exact bne_iff_ne.mpr (hroot ▸ (hfolders e he).1.symm)
      · rename_i hroot
        obtain ⟨hout, hthere⟩ := lookup_filter_outside hu
        rw [lookup_filter_keys (f := fun r => !p.isPrefixOf r) hout] at hfree
        exact .inl ⟨hfree, by rwa [if_neg hroot]⟩

theorem edit {change : FileEdit} (hlater : change.MadeAfter t) (hfolders : d.FoldersHold) :
    d.ChangedAfter t (change.on d) := by
  unfold FileEdit.on
  cases hd : change.attempt d with
  | error e => exact refl d t
  | ok d' =>
    cases change with
    | write now path data => exact write hlater.1 hlater.2 hd
    | makeFolder now path => exact makeFolder hlater hd
    | remove path => exact remove hfolders hd

/-- However many changes are made after a given time, what they leave has been there before. -/
theorem edits {changes : List FileEdit} (hlater : ∀ change ∈ changes, change.MadeAfter t)
    (hfolders : d.FoldersHold) : d.ChangedAfter t (FileEdit.allOn d changes) := by
  unfold FileEdit.allOn
  induction changes generalizing d with
  | nil => exact refl d t
  | cons change changes ih =>
    have hfirst : d.ChangedAfter t (change.on d) := edit (hlater _ List.mem_cons_self) hfolders
    exact hfirst.trans (ih (fun c hc => hlater c (List.mem_cons_of_mem _ hc)) (hfolders.edit change))

end ChangedAfter

theorem entryAt?_of_unchanged (h : d.ChangedAfter t d') (hpath : d'.UnchangedSince t path) :
    ∃ p e, d'.locate path = .ok p ∧ d'.entryAt? p = some e ∧ d.entryAt? p = some e := by
  obtain ⟨u, hu, hle⟩ := hpath
  cases hfind : d'.find path with
  | error err =>
    rw [modifiedMs, hfind] at hu
    cases hu
  | ok e =>
    obtain ⟨p, hp, he⟩ := find_eq_ok.mp hfind
    rw [modifiedMs, hfind] at hu
    cases hu
    exact ⟨p, e, hp, he, (h p e he).resolve_right (not_lt.mpr hle)⟩

theorem not_folder_of_write {now : Nat} {data : FileData} (h : d.write now path data = .ok d') :
    d.entryAt? (wouldBe path) ≠ some (.folder t) := by
  intro hfolder
  simp only [write, hfolder] at h
  cases h

end Disk

/-! ## Entries on disks -/

namespace SolutionCache

variable {c : SolutionCache} {d d₀ d₁ d' : Disk} {t₀ t₁ : Nat} {path : String} {s : Solution}

section Store

variable (hfolder : d.makeFolder t₀ c.dir = .ok d₀) (hstore : c.store d t₀ path s = .ok d')

include hfolder hstore

theorem lookup_store {p : Place} (hp : p ≠ Disk.wouldBe (c.entryPath d₀ path)) :
    d'.files.lookup p = d.files.lookup p := by
  rw [Disk.lookup_write_of_ne (store_ok hfolder hstore) hp, Disk.files_makeFolder hfolder]

/-- Where a text was there is one still. -/
theorem text_store {p : Place} {data : FileData} {text : String} (hp : d.files.lookup p = some data)
    (htext : String.fromUTF8? data.bytes = some text) :
    ∃ data' text', d'.files.lookup p = some data' ∧ String.fromUTF8? data'.bytes = some text' := by
  by_cases hentry : p = Disk.wouldBe (c.entryPath d₀ path)
  · rw [hentry]
    exact ⟨_, _, Disk.lookup_write (store_ok hfolder hstore), Text.fromUTF8?_toUTF8 _⟩
  · exact ⟨data, text, (lookup_store hfolder hstore hentry).trans hp, htext⟩

/-- A folder does not become a file. -/
theorem lookup_store_folder {p : Place} {t : Nat} (hp : d.entryAt? p = some (.folder t)) :
    d'.files.lookup p = none := by
  have hkept := Disk.entryAt?_makeFolder hfolder hp
  have hentry : p ≠ Disk.wouldBe (c.entryPath d₀ path) := by
    intro heq
    rw [heq] at hkept
    exact Disk.not_folder_of_write (store_ok hfolder hstore) hkept
  exact (lookup_store hfolder hstore hentry).trans (Disk.entryAt?_eq_folder.mp hp).1

end Store

/-- A path in plain spelling has the same entry on all disks. -/
theorem entryPath_of_plain (h : (Place.ofPath path).path = path) :
    c.entryPath d₁ path = c.entryPath d path := by
  have hsource (d : Disk) : sourcePath d path = Text.forwardSlashes path := by
    rw [sourcePath]
    cases hfull : d.canonical path with
    | error e => rfl
    | ok full =>
      rw [Disk.eq_path_of_canonical hfull, h]
      rfl
  exact entryPath_eq ((hsource d₁).trans (hsource d).symm)

/-- A solution that is found is the one that was kept, and its manifests have not changed since, nor the
file that it was analyzed from. -/
theorem load_hit (hfits : Json.Lawful.Fits s) (ht : t₀ < maxWord64)
    (hfolder : d.makeFolder t₀ c.dir = .ok d₀) (hstore : c.store d t₀ path s = .ok d')
    (hnamed : d₁.FilesNamed) (hfolders : d₁.FoldersHold)
    (hentry : c.entryPath d₁ path = c.entryPath d₀ path) (hintact : Intact d' d₁ (c.entryPath d₀ path))
    {found : Solution} (hhit : c.load d₁ t₁ path = .ok (some found)) :
    found = s ∧ (d₁.isFolder path = false → d₁.UnchangedSince t₀ path) ∧
      ∀ p ∈ s.projects, d₁.UnchangedSince t₀ p.projectFilePath := by
  rw [load_of_intact hfits ht hfolder hstore hentry hintact] at hhit
  split at hhit
  · rename_i hfresh
    obtain ⟨-, -, -, hnewest⟩ := isFresh_iff.mp hfresh
    have hmanifests := ((CacheInputs.newestMs_le hnamed hfolders ht).mp hnewest).1
    cases hhit
    exact ⟨rfl, CacheInputs.forall_mem_manifests.mp hmanifests⟩
  · cases hhit

end SolutionCache

/-! ## Projects that are still there -/

section Projects

variable {α β : Type} {f g : α → Option β}

/-- When what was found is found again, the list can only grow, and grows with each new find. -/
theorem filterMap_grows {l : List α} (h : ∀ x ∈ l, ∀ y, f x = some y → g x = some y) :
    (l.filterMap f).Sublist (l.filterMap g) ∧
      (l.filterMap f = l.filterMap g ↔ ∀ x ∈ l, (g x).isSome → (f x).isSome) := by
  induction l with
  | nil => simp
  | cons x l ih =>
    obtain ⟨hsub, hiff⟩ := ih fun y hy => h y (List.mem_cons_of_mem x hy)
    simp only [List.filterMap_cons, List.forall_mem_cons]
    cases hf : f x with
    | some y =>
      rw [h x List.mem_cons_self y hf]
      exact ⟨hsub.cons_cons y, by simp [hiff]⟩
    | none =>
      cases hg : g x with
      | none => exact ⟨hsub, by simp [hiff]⟩
      | some y =>
        refine ⟨hsub.cons y, ?_⟩
        have hlength := hsub.length_le
        simp only [Option.isSome_some, Option.isSome_none, Bool.false_eq_true, imp_false, not_true_eq_false,
          false_and, iff_false]
        intro heq
        rw [heq, List.length_cons] at hlength
        omega

end Projects

namespace Disk

variable {d d' : Disk} {manifest full : String}

theorem canonical_eq_ok :
    d.canonical manifest = .ok full ↔ ∃ p, d.locate manifest = .ok p ∧ p.path = full := by
  rw [canonical]
  cases d.locate manifest <;> simp [Except.map]

/-- A project that can be analyzed is a file with a text at a place with proper names. -/
theorem projectAt?_file (h : d.projectAt? manifest = some full) :
    ∃ p data text, p.Named ∧ p.path = full ∧ d.locate manifest = .ok p ∧ d.locate full = .ok p ∧
      d.files.lookup p = some data ∧ String.fromUTF8? data.bytes = some text := by
  obtain ⟨hfull, ⟨text, htext⟩, -⟩ := projectAt?_eq_some.mp h
  obtain ⟨p, hp, rfl⟩ := canonical_eq_ok.mp hfull
  obtain ⟨q, data, hq, hdata, hutf8⟩ := readText_eq_ok.mp htext
  have hnamed : p.Named := eq_ofPath_of_locate hp ▸ Place.named_ofPath manifest
  obtain rfl : q = p := (eq_ofPath_of_locate hq).trans (Place.ofPath_path hnamed)
  exact ⟨q, data, text, hnamed, rfl, hp, hq, hdata, hutf8⟩

theorem projectAt?_self (h : d.projectAt? manifest = some full) : d.projectAt? full = some full := by
  obtain ⟨p, -, -, -, hpath, -, hp, -⟩ := projectAt?_file h
  obtain ⟨-, htext, hdirectory⟩ := projectAt?_eq_some.mp h
  exact projectAt?_eq_some.mpr ⟨canonical_eq_ok.mpr ⟨p, hp, hpath⟩, htext, hdirectory⟩

/-- Projects that can be analyzed are those of some manifests when each is listed there, and no other
project that can be analyzed is. -/
theorem mem_projects_iff {kept manifests : List String} (hthere : ∀ q ∈ kept, d.projectAt? q = some q) :
    (∀ q, q ∈ kept ↔ q ∈ manifests.filterMap d.projectAt?) ↔
      (∀ q ∈ kept, ∃ m ∈ manifests, d.canonical m = .ok q) ∧
        ∀ m ∈ manifests, ∀ q, d.projectAt? m = some q → q ∈ kept := by
  simp only [List.mem_filterMap]
  constructor
  · intro h
    refine ⟨fun q hq => ?_, fun m hm q hq => (h q).mpr ⟨m, hm, hq⟩⟩
    obtain ⟨m, hm, hmq⟩ := (h q).mp hq
    exact ⟨m, hm, (projectAt?_eq_some.mp hmq).1⟩
  · rintro ⟨hstill, honly⟩ q
    refine ⟨fun hq => ?_, fun ⟨m, hm, hmq⟩ => honly m hm q hmq⟩
    obtain ⟨m, hm, hmq⟩ := hstill q hq
    have hproject := (projectAt?_eq_some.mp (hthere q hq)).2
    exact ⟨m, hm, projectAt?_eq_some.mpr ⟨hmq, hproject⟩⟩

end Disk

namespace SolutionCache

variable {c : SolutionCache} {d d₀ d₁ d' : Disk} {t₀ t₁ : Nat} {path manifest full : String} {s : Solution}

section Later

variable (hfolder : d.makeFolder t₀ c.dir = .ok d₀) (hstore : c.store d t₀ path s = .ok d')
  (hchanges : d'.ChangedAfter t₀ d₁)

include hfolder hstore hchanges

/-- A project whose manifest has not changed can still be analyzed. -/
theorem projectAt?_again (hfolders : d₁.FoldersHold) (hstraight : Path.Straight manifest)
    (h : d.projectAt? manifest = some full) (hunchanged : d₁.UnchangedSince t₀ full) :
    d₁.projectAt? manifest = some full := by
  obtain ⟨p, data, text, hnamed, hpath, hp, -, hdata, htext⟩ := Disk.projectAt?_file h
  obtain ⟨data', text', hdata', htext'⟩ := text_store hfolder hstore hdata htext
  obtain ⟨q, e, hq, he, hthere⟩ := Disk.entryAt?_of_unchanged hchanges hunchanged
  obtain rfl : q = p := by rw [Disk.eq_ofPath_of_locate hq, ← hpath, Place.ofPath_path hnamed]
  rw [Disk.entryAt?_eq_file.mpr hdata'] at hthere
  cases hthere
  have hagain : d₁.locate manifest = .ok q :=
    Disk.locate_again hstraight hp (Disk.entryAt?_eq_file.mpr hdata) hfolders
      (Disk.mem_files_of_entryAt? he)
  refine Disk.projectAt?_eq_some.mpr ⟨Disk.canonical_eq_ok.mpr ⟨q, hagain, hpath⟩, ⟨text', ?_⟩, ?_⟩
  · exact Disk.readText_eq_ok.mpr ⟨q, data', hq, Disk.entryAt?_eq_file.mp he, htext'⟩
  · exact (Disk.projectAt?_eq_some.mp h).2.2

/-- A file that has not changed stands for the same projects. -/
theorem discover_again (hpath : d.canonical path = .ok path) {layout : Layout}
    (hlayout : Layout.discover d path = .ok layout) (hfile : d₁.isFolder path = false)
    (hunchanged : d₁.UnchangedSince t₀ path) :
    d.isFolder path = false ∧ Layout.discover d₁ path = Layout.discover d path ∧
      d₁.readText path = d.readText path := by
  obtain ⟨p, hp, hplain⟩ := Disk.canonical_eq_ok.mp hpath
  have hnamed : p.Named := Disk.eq_ofPath_of_locate hp ▸ Place.named_ofPath path
  obtain ⟨q, e, hq, he, hthere⟩ := Disk.entryAt?_of_unchanged hchanges hunchanged
  obtain rfl : q = p := by rw [Disk.eq_ofPath_of_locate hq, Disk.eq_ofPath_of_locate hp]
  cases e with
  | folder t =>
    rw [Disk.isFolder, Disk.find_of_locate hq he] at hfile
    cases hfile
  | file data =>
    have hdata := Disk.entryAt?_eq_file.mp hthere
    have hfile₀ : d.isFolder path = false := by
      rw [Bool.eq_false_iff]
      intro hfolder₀
      obtain ⟨r, t, hr, ht⟩ := Disk.isFolder_eq_true.mp hfolder₀
      obtain rfl : r = q := Except.ok.inj (hr.symm.trans hp)
      rw [lookup_store_folder hfolder hstore ht] at hdata
      cases hdata
    have hbefore : d.files.lookup q = some data := by
      obtain ⟨extension, hknown, hextension⟩ :=
        Layout.extension_of_discover hp (hplain ▸ hfile₀) hlayout
      have hothers : ∀ x ∈ ["sln", "slnx", "csproj"], Text.eqIgnoreCase "json" x = false := by decide
      have hother := hothers extension hknown
      rw [← lookup_store hfolder hstore (c.wouldBe_entryPath_ne d₀ path hnamed hextension hother), hdata]
    have htext : d₁.readText path = d.readText path := by
      rw [Disk.readText, Disk.readText, Disk.readBytes_of_locate hp hbefore,
        Disk.readBytes_of_locate hq (Disk.entryAt?_eq_file.mp he)]
    have hsame := Layout.discover_congr hp hq (hplain ▸ hfile₀) (hplain ▸ hfile) (hplain ▸ htext)
    exact ⟨hfile₀, hsame, htext⟩

section Found

variable {config : AnalyzerConfig} {kept : List String}
  (hkept : kept = (manifestsOf config d path).filterMap d.projectAt?)
  (hunchanged : ∀ q ∈ kept, d₁.UnchangedSince t₀ q)

include hkept hunchanged

/-- The projects that were found are all there still. -/
theorem projectAt?_kept (hfolders : d₁.FoldersHold) : ∀ q ∈ kept, d₁.projectAt? q = some q := by
  intro q hq
  obtain ⟨m, -, hmq⟩ := List.mem_filterMap.mp (hkept ▸ hq)
  obtain ⟨p, -, -, hp, hpq, -⟩ := Disk.projectAt?_file hmq
  exact projectAt?_again hfolder hstore hchanges hfolders (hpq ▸ Path.straight_path hp)
    (Disk.projectAt?_self hmq) (hunchanged q hq)

/-- As long as the same manifests are listed, projects can only be added. -/
theorem kept_grows (hnamed : d.FilesNamed) (hfolders : d₁.FoldersHold) :
    kept.Sublist ((manifestsOf config d path).filterMap d₁.projectAt?) ∧
      (kept = (manifestsOf config d path).filterMap d₁.projectAt? ↔
        ∀ m ∈ manifestsOf config d path, (d₁.projectAt? m).isSome → (d.projectAt? m).isSome) := by
  rw [hkept]
  refine filterMap_grows fun m hm q hq => ?_
  refine projectAt?_again hfolder hstore hchanges hfolders (straight_of_mem_manifestsOf hnamed hm) hq ?_
  exact hunchanged q (hkept ▸ List.mem_filterMap.mpr ⟨m, hm, hq⟩)

end Found

end Later

/-- A manifest stands for itself, and can be analyzed again when its text is the same. -/
theorem isSome_projectAt?_of_manifest {config : AnalyzerConfig} (hpath : d.canonical path = .ok path)
    (hfile : d.isFolder path = false) (hcsproj : Path.hasExtension path "csproj" = true)
    (htext : d₁.readText path = d.readText path) (hm : manifest ∈ manifestsOf config d path)
    (hsome : (d₁.projectAt? manifest).isSome) : (d.projectAt? manifest).isSome := by
  have hplain : (Place.ofPath path).path = path := (Disk.eq_path_of_canonical hpath).symm
  obtain ⟨p, hp, hplace⟩ := Disk.canonical_eq_ok.mp hpath
  obtain ⟨layout, hlayout, entry, hentry, rfl⟩ := exists_of_mem_manifestsOf hm
  have hown := Layout.manifestPath_of_discover hp (hplace ▸ hfile) (hplace ▸ hcsproj) hlayout entry hentry
  rw [hown, hplace] at hsome ⊢
  obtain ⟨full, hfull⟩ := Option.isSome_iff_exists.mp hsome
  obtain ⟨hcanonical, hread, hdirectory⟩ := Disk.projectAt?_eq_some.mp hfull
  obtain rfl : full = path := (Disk.eq_path_of_canonical hcanonical).trans hplain
  rw [htext] at hread
  rw [Disk.projectAt?_eq_some.mpr ⟨hpath, hread, hdirectory⟩]
  rfl

/-- A solution that is found has only projects that can still be analyzed. It has the same projects as an
analysis now, with the same settings, exactly when the path still stands for all of them, and for no other
that can be analyzed. A solution file or a manifest that is still a file stands for the same projects as
before: the analysis now finds what was found, and it finds more when the manifest of a listed project has
come to be since. A project by itself is always covered. -/
theorem hit_covers {a b : Analyzer} {w w₁ : Workspace} {call call₁ : Call} {found : Solution}
    (hpath : w.disk.canonical path = .ok path) (hw : w.provider = .workspace)
    (hs : (a.analyzeSolution w call path).result = .ok s) (hfits : Json.Lawful.Fits s)
    (ht : t₀ < maxWord64) (hfolder : w.disk.makeFolder t₀ c.dir = .ok d₀)
    (hstore : c.store w.disk t₀ path s = .ok d') (hnamed : w.disk.FilesNamed)
    (hchanges : d'.ChangedAfter t₀ w₁.disk) (hnamed₁ : w₁.disk.FilesNamed)
    (hfolders₁ : w₁.disk.FoldersHold) (hintact : Intact d' w₁.disk (c.entryPath d₀ path))
    (hhit : c.load w₁.disk t₁ path = .ok (some found)) (hw₁ : w₁.provider = .workspace)
    (hconfig : b.config = a.config) (hgoes : ∀ moment, w₁.givesUp moment = false)
    (hcall₁ : call₁.cancelled = false) :
    let kept := found.projects.map (·.projectFilePath)
    let listed (d : Disk) := manifestsOf a.config d path
    (∀ q ∈ kept, w₁.disk.projectAt? q = some q) ∧
      (w₁.disk.isFolder path = false → ∃ s₁, (b.analyzeSolution w₁ call₁ path).result = .ok s₁) ∧
      ∀ s₁, (b.analyzeSolution w₁ call₁ path).result = .ok s₁ →
        let now := s₁.projects.map (·.projectFilePath)
        ((∀ q, q ∈ kept ↔ q ∈ now) ↔
          (∀ q ∈ kept, ∃ m ∈ listed w₁.disk, w₁.disk.canonical m = .ok q) ∧
            ∀ m ∈ listed w₁.disk, ∀ q, w₁.disk.projectAt? m = some q → q ∈ kept) ∧
        (w₁.disk.isFolder path = false → kept.Sublist now ∧
          (kept = now ↔ ∀ m ∈ listed w.disk,
            (w₁.disk.projectAt? m).isSome → (w.disk.projectAt? m).isSome)) ∧
        (w₁.disk.isFolder path = false → Path.hasExtension path "csproj" = true → kept = now) := by
  intro kept listed
  have hplain : (Place.ofPath path).path = path := (Disk.eq_path_of_canonical hpath).symm
  obtain ⟨rfl, hpathKept, hmanifests⟩ := load_hit hfits ht hfolder hstore hnamed₁ hfolders₁
    (entryPath_of_plain hplain) hintact hhit
  obtain ⟨layout, hlayout, -⟩ := Analyzer.analyzeSolution_ok hs
  have hkept : kept = (listed w.disk).filterMap w.disk.projectAt? := Analyzer.analyzeSolution_covers hw hs
  have hunchanged : ∀ q ∈ kept, w₁.disk.UnchangedSince t₀ q := List.forall_mem_map.mpr hmanifests
  have hthere : ∀ q ∈ kept, w₁.disk.projectAt? q = some q :=
    projectAt?_kept hfolder hstore hchanges hkept hunchanged hfolders₁
  have hgrows := kept_grows hfolder hstore hchanges hkept hunchanged hnamed hfolders₁
  have hfiles (hfile : w₁.disk.isFolder path = false) :
      w.disk.isFolder path = false ∧ Layout.discover w₁.disk path = Layout.discover w.disk path ∧
        w₁.disk.readText path = w.disk.readText path :=
    discover_again hfolder hstore hchanges hpath hlayout hfile (hpathKept hfile)
  refine ⟨hthere, fun hfile => ?_, fun s₁ hs₁ => ?_⟩
  · exact Analyzer.analyzeSolution_succeeds hw₁ hgoes hcall₁ ((hfiles hfile).2.1.trans hlayout)
  intro now
  have hnow : now = (listed w₁.disk).filterMap w₁.disk.projectAt? := by
    have hcovers := Analyzer.analyzeSolution_covers hw₁ hs₁
    rwa [hconfig] at hcovers
  have hnowFile (hfile : w₁.disk.isFolder path = false) :
      now = (listed w.disk).filterMap w₁.disk.projectAt? := by
    have hlisted : listed w₁.disk = listed w.disk := by
      simp only [listed, manifestsOf, (hfiles hfile).2.1]
    rw [hnow, hlisted]
  refine ⟨hnow ▸ Disk.mem_projects_iff hthere, fun hfile => hnowFile hfile ▸ hgrows,
    fun hfile hcsproj => ?_⟩
  obtain ⟨hfile₀, -, htext⟩ := hfiles hfile
  rw [hnowFile hfile]
  exact hgrows.2.mpr fun m hm hsome => isSome_projectAt?_of_manifest hpath hfile₀ hcsproj htext hm hsome

namespace Relisted

open SolutionCache.Example (cache text ok_of_isSome)

def listingOne : String := "<Solution><Project Path=\"A/A.csproj\" /></Solution>"

def listingTwo : String :=
  "<Solution><Project Path=\"A/A.csproj\" /><Project Path=\"B/B.csproj\" /></Solution>"

/-- A directory with two projects, and a solution file that lists one of them. -/
def before : Disk where
  folders := [(["tmp"], 1), (["ws"], 1), (["ws", "A"], 1), (["ws", "B"], 1)]
  files := [(["ws", "S.slnx"], text listingOne 10), (["ws", "A", "A.csproj"], text "<Project />" 10),
    (["ws", "B", "B.csproj"], text "<Project />" 10)]

def analyzer : Analyzer := { config := {}, exclude := {} }

/-- What the directory comes to. -/
def solution : Solution where
  name := "S"
  path := "/ws/S.slnx"
  projects := [{
    name := "A"
    projectFilePath := "/ws/A/A.csproj"
    rootDirectories := ["/ws/A"]
    files := [⟨"/ws/A/A.csproj", "A.csproj", "/ws/A/A.csproj", "csproj", 11, 1, 10, .config⟩]
    statistics := { fileCount := 1, totalLines := 1, totalSizeBytes := 11 } }]
  statistics := { fileCount := 1, totalLines := 1, totalSizeBytes := 11 }

/-- The disk with the directory of the cache. -/
def prepared : Disk := (before.makeFolder 1000 cache.dir).toOption.getD {}

/-- The disk with the entry for the directory. -/
def kept : Disk := (cache.store before 1000 "/ws" solution).toOption.getD {}

/-- The solution file lists the other project as well. -/
def relisted : Disk := (kept.write 1500 "/ws/S.slnx" (text listingTwo 1500)).toOption.getD {}

def on (d : Disk) : Workspace := { provider := .workspace, disk := d }

theorem fits_solution : Json.Lawful.Fits solution := by
  simp [Json.Lawful.Fits, Solution.shape, Project.shape, Statistics.shape, Conventions.shape,
    FileEntry.shape, Json.Slot.ofRequired, Json.Slot.ofSome, solution, maxWord64]

/-- The solution file is edited, and neither the entry nor what it is checked against is touched. -/
theorem run :
    (analyzer.analyzeSolution (on before) {} "/ws").result = .ok solution ∧
      (cache.store before 1000 "/ws" solution).toOption.isSome = true ∧
      (kept.write 1500 "/ws/S.slnx" (text listingTwo 1500)).toOption.isSome = true ∧
      relisted.locate (cache.entryPath prepared "/ws") =
        .ok (Disk.wouldBe (cache.entryPath prepared "/ws")) ∧
      Disk.wouldBe (cache.entryPath prepared "/ws") ≠ Disk.wouldBe "/ws/S.slnx" ∧
      cache.isFresh relisted 2000 "/ws" (entryNow prepared 1000 "/ws" solution) = true ∧
      (analyzer.analyzeSolution (on relisted) {} "/ws").result.toOption.map
        (·.projects.map (·.projectFilePath)) = some ["/ws/A/A.csproj", "/ws/B/B.csproj"] ∧
      "/ws/B/B.csproj" ∈ manifestsOf {} relisted "/ws" ∧
      relisted.projectAt? "/ws/B/B.csproj" = some "/ws/B/B.csproj" := by
  decide +kernel

theorem ok_of_map {ε α β : Type} {x : Except ε α} {f : α → β} {z : β} (h : x.toOption.map f = some z) :
    ∃ y, x = .ok y ∧ f y = z := by
  cases x with
  | error e => cases h
  | ok y => exact ⟨y, rfl, Option.some.inj h⟩

theorem makeFolder_before : before.makeFolder 1000 cache.dir = .ok prepared := rfl

theorem store_before : cache.store before 1000 "/ws" solution = .ok kept :=
  ok_of_isSome run.2.1

theorem write_kept : kept.write 1500 "/ws/S.slnx" (text listingTwo 1500) = .ok relisted :=
  ok_of_isSome run.2.2.1

theorem filesNamed_before : before.FilesNamed := by
  simp only [Disk.FilesNamed, before, List.forall_mem_cons]
  decide

/-- The change of the solution file. -/
def relisting : FileEdit := .write 1500 "/ws/S.slnx" (text listingTwo 1500)

theorem allOn_kept : FileEdit.allOn kept [relisting] = relisted := by
  have hwrite : relisting.attempt kept = .ok relisted := write_kept
  rw [FileEdit.allOn, List.foldl_cons, List.foldl_nil, FileEdit.on_eq_of_ok hwrite]

theorem wellFormed_kept : kept.FilesNamed ∧ kept.FoldersHold := by
  have hbefore : before.FoldersHold := by decide +kernel
  exact ⟨filesNamed_store makeFolder_before store_before filesNamed_before,
    foldersHold_store makeFolder_before store_before hbefore⟩

theorem wellFormed_relisted : relisted.FilesNamed ∧ relisted.FoldersHold :=
  allOn_kept ▸ FileEdit.allOn_wellFormed wellFormed_kept [relisting]

theorem changedAfter_kept : kept.ChangedAfter 1000 relisted := by
  have hlater : ∀ change ∈ [relisting], change.MadeAfter 1000 := by
    rw [List.forall_mem_singleton]
    exact ⟨by decide, by decide⟩
  exact allOn_kept ▸ Disk.ChangedAfter.edits hlater wellFormed_kept.2

theorem intact_relisted : Intact kept relisted (cache.entryPath prepared "/ws") := by
  obtain ⟨-, -, -, hat, hne, -⟩ := run
  exact intact_of_lookup makeFolder_before store_before hat (Disk.lookup_write_of_ne write_kept hne)

theorem load_relisted : cache.load relisted 2000 "/ws" = .ok (some solution) := by
  obtain ⟨-, -, -, -, -, hfresh, -⟩ := run
  rw [load_of_intact fits_solution (by decide) makeFolder_before store_before
    (entryPath_of_plain (by decide +kernel)) intact_relisted, if_pos hfresh]

end Relisted

/-- A directory stands for the projects of its solution file, and the solution file is not asked about when
the directory is: its edit does not end the entry, and the solution that is given back lacks a project. -/
theorem hit_covers_relisted :
    let c := Example.cache
    let a := Relisted.analyzer
    let s := Relisted.solution
    (a.analyzeSolution (Relisted.on Relisted.before) {} "/ws").result = .ok s ∧
      c.store Relisted.before 1000 "/ws" s = .ok Relisted.kept ∧
      Relisted.kept.write 1500 "/ws/S.slnx" (Example.text Relisted.listingTwo 1500) =
        .ok Relisted.relisted ∧
      c.load Relisted.relisted 2000 "/ws" = .ok (some s) ∧
      ∃ s₁, (a.analyzeSolution (Relisted.on Relisted.relisted) {} "/ws").result = .ok s₁ ∧
        s.projects.map (·.projectFilePath) = ["/ws/A/A.csproj"] ∧
        s₁.projects.map (·.projectFilePath) = ["/ws/A/A.csproj", "/ws/B/B.csproj"] ∧
        ¬∀ q, q ∈ s.projects.map (·.projectFilePath) ↔ q ∈ s₁.projects.map (·.projectFilePath) := by
  intro c a s
  obtain ⟨hs, -, -, -, -, -, hnow, hlisted, hproject⟩ := Relisted.run
  obtain ⟨s₁, hok, hpaths⟩ := Relisted.ok_of_map hnow
  have hpath : (Relisted.on Relisted.before).disk.canonical "/ws" = .ok "/ws" := by decide +kernel
  have hwrite := Relisted.write_kept
  obtain ⟨hnamed, hfolders⟩ := Relisted.wellFormed_relisted
  have hintact := Relisted.intact_relisted
  have hload := Relisted.load_relisted
  have hchanges := Relisted.changedAfter_kept
  -- What follows needs no more of the disk than these facts, and must not compute it.
  generalize Relisted.relisted = later at *
  replace hchanges : Relisted.kept.ChangedAfter 1000 (Relisted.on later).disk := hchanges
  have hcovers := hit_covers hpath rfl hs Relisted.fits_solution (by decide) Relisted.makeFolder_before
    Relisted.store_before Relisted.filesNamed_before hchanges hnamed hfolders hintact hload rfl
    (rfl : a.config = a.config) (fun _ => rfl) (rfl : Call.cancelled {} = false)
  refine ⟨hs, Relisted.store_before, hwrite, hload, s₁, hok, rfl, hpaths, fun hsame => ?_⟩
  have honly := ((hcovers.2.2 s₁ hok).1.mp hsame).2
  have hmissing : "/ws/B/B.csproj" ∉ s.projects.map (·.projectFilePath) := by decide
  exact hmissing (honly _ hlisted _ hproject)

end SolutionCache

end SolutionAtlas
