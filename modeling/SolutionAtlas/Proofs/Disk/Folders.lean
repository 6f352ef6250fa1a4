-- SUMMARY: Disks whose files lie in folders, and what a scan lists on them.
import Mathlib
import SolutionAtlas.Proofs.Disk.Places
import SolutionAtlas.Proofs.Path.Joined

/-!
# Files in folders

On a disk, the folder of everything is a folder. All changes keep it so, and it makes sure that every
path that a scan lists leads to its file, however the root is spelled.
-/

namespace SolutionAtlas

namespace Disk

variable {d : Disk}

/-- The root is no file, and all places on the way to a file are folders. -/
def FoldersHold (d : Disk) : Prop :=
  ∀ e ∈ d.files, e.1 ≠ [] ∧ ∀ q, q <+: e.1 → q ≠ e.1 → ∃ t, d.entryAt? q = some (.folder t)

/-! ## Changes -/

theorem lookup_filter_keys {β : Type} {f : Place → Bool} {q : Place} (h : f q = true)
    (entries : List (Place × β)) : (entries.filter fun e => f e.1).lookup q = entries.lookup q := by
  induction entries with
  | nil => rfl
  | cons e entries ih =>
    obtain ⟨k, v⟩ := e
    rw [List.filter_cons]
    by_cases hk : q = k
    · subst hk
      simp [h]
    · have hne : (q == k) = false := by simpa using hk
      split
      · rw [List.lookup_cons, List.lookup_cons, hne, ih]
      · rw [List.lookup_cons, hne, ih]

theorem mem_above {p q : Place} : q ∈ above p ↔ q <+: p ∧ q ≠ p := by
  simp only [above, List.mem_map, List.mem_range]
  constructor
  · rintro ⟨n, hn, rfl⟩
    refine ⟨List.take_prefix n p, fun h => ?_⟩
    have hlength := congrArg List.length h
    rw [List.length_take] at hlength
    omega
  · rintro ⟨hlead, hne⟩
    refine ⟨q.length, ?_, (List.prefix_iff_eq_take.mp hlead).symm⟩
    exact lt_of_le_of_ne hlead.length_le fun h => hne (hlead.eq_of_length h)

theorem mem_above_concat {p q : Place} : q ∈ above p ++ [p] ↔ q <+: p := by
  rw [List.mem_append, mem_above, List.mem_singleton]
  constructor
  · rintro (⟨hlead, -⟩ | rfl)
    · exact hlead
    · exact List.prefix_rfl
  · exact fun hlead => (em (q = p)).elim .inr fun hne => .inl ⟨hlead, hne⟩

theorem exists_eq_folder {e : Option Entry} :
    (∃ t, e = some (.folder t)) ↔ e.any Entry.isFolder = true := by
  rcases e with _ | (data | t) <;> simp [Entry.isFolder]

instance (d : Disk) : Decidable d.FoldersHold :=
  decidable_of_iff (∀ e ∈ d.files, e.1 ≠ [] ∧
      ∀ q ∈ above e.1, (d.entryAt? q).any Entry.isFolder = true) <| by
    simp only [FoldersHold, mem_above, and_imp, exists_eq_folder]

theorem entryAt?_eq_folder {p : Place} {t : Nat} :
    d.entryAt? p = some (.folder t) ↔
      d.files.lookup p = none ∧ if p = [] then t = 0 else d.folders.lookup p = some t := by
  unfold entryAt?
  cases d.files.lookup p with
  | some data => simp
  | none => cases p <;> simp [eq_comm]

theorem isSome_entryAt?_of_mem {p : Place} {data : FileData} (h : (p, data) ∈ d.files) :
    (d.entryAt? p).isSome = true := by
  unfold entryAt?
  cases hfound : d.files.lookup p with
  | some data => rfl
  | none => simpa using List.lookup_eq_none_iff.mp hfound _ h

/-- Making a folder of one place, unless there is something. -/
theorem folder_step (now : Nat) {p : Place} (hfree : d.files.lookup p = none) :
    let d' := if (d.entryAt? p).isSome then d else { d with folders := d.folders ++ [(p, now)] }
    d'.files = d.files ∧ (∃ t, d'.entryAt? p = some (.folder t)) ∧
      ∀ q t, d.entryAt? q = some (.folder t) → d'.entryAt? q = some (.folder t) := by
  intro d'
  by_cases hthere : (d.entryAt? p).isSome = true
  · have hd' : d' = d := if_pos hthere
    rw [hd']
    refine ⟨rfl, ?_, fun q t h => h⟩
    obtain ⟨e, he⟩ := Option.isSome_iff_exists.mp hthere
    cases e with
    | file data =>
      rw [entryAt?, hfree] at he
      dsimp only at he
      split at he
      · cases he
      · obtain ⟨t, -, ht⟩ := Option.map_eq_some_iff.mp he
        cases ht
    | folder t => exact ⟨t, he⟩
  · have hd' : d' = { d with folders := d.folders ++ [(p, now)] } := if_neg hthere
    have hnew : p ≠ [] ∧ d.folders.lookup p = none := by
      rw [entryAt?, hfree] at hthere
      cases p with
      | nil => exact absurd rfl hthere
      | cons s p =>
        refine ⟨List.cons_ne_nil s p, Option.isNone_iff_eq_none.mp ?_⟩
        simpa only [Option.isSome_map, Bool.not_eq_true, Option.isSome_eq_false_iff, List.isEmpty_cons,
          Bool.false_eq_true, if_false] using hthere
    rw [hd']
    refine ⟨rfl, ⟨now, ?_⟩, fun q t h => ?_⟩
    · rw [entryAt?_eq_folder, if_neg hnew.1]
      exact ⟨hfree, by simp [List.lookup_append, hnew.2]⟩
    · rw [entryAt?_eq_folder] at h ⊢
      refine ⟨h.1, ?_⟩
      split
      · rename_i hq
        rw [if_pos hq] at h
        exact h.2
      · rename_i hq
        rw [if_neg hq] at h
        simp [List.lookup_append, h.2]

/-- Folders stay folders, and the place and all above it become folders when there are no files. -/
theorem entryAt?_addFolder (now : Nat) {p : Place} (hfree : ∀ q, q <+: p → d.files.lookup q = none) :
    (∀ q t, d.entryAt? q = some (.folder t) → (d.addFolder now p).entryAt? q = some (.folder t)) ∧
      ∀ q, q <+: p → ∃ t, (d.addFolder now p).entryAt? q = some (.folder t) := by
  have hplaces : ∀ q ∈ above p ++ [p], d.files.lookup q = none :=
    fun q hq => hfree q (mem_above_concat.mp hq)
  simp only [← mem_above_concat (p := p), addFolder]
  clear hfree
  generalize above p ++ [p] = places at hplaces
  induction places generalizing d with
  | nil => exact ⟨fun q t h => h, fun q hq => absurd hq List.not_mem_nil⟩
  | cons q places ih =>
    obtain ⟨hfiles, ⟨t, hq⟩, hkept⟩ := folder_step now (hplaces q List.mem_cons_self)
    rw [List.foldl_cons]
    generalize (if (d.entryAt? q).isSome = true then d
      else { d with folders := d.folders ++ [(q, now)] }) = d' at hfiles hq hkept
    obtain ⟨hkept', hadded⟩ := ih (d := d') fun r hr => by
      rw [hfiles]
      exact hplaces r (List.mem_cons_of_mem _ hr)
    refine ⟨fun r u h => hkept' r u (hkept r u h), fun r hr => ?_⟩
    rcases List.mem_cons.mp hr with rfl | hr
    · exact ⟨t, hkept' r t hq⟩
    · exact hadded r hr

theorem prefix_dropLast {p q : Place} (hlead : q <+: p) (hne : q ≠ p) : q <+: p.dropLast := by
  rw [List.dropLast_eq_take, List.prefix_take_iff]
  refine ⟨hlead, ?_⟩
  have hlength : q.length ≠ p.length := fun h => hne (hlead.eq_of_length h)
  have hle := hlead.length_le
  omega

theorem FoldersHold.addFolder (h : d.FoldersHold) {now : Nat} {p : Place}
    (hfree : ∀ q, q <+: p → d.files.lookup q = none) : (d.addFolder now p).FoldersHold := by
  intro e he
  rw [files_addFolder] at he
  refine ⟨(h e he).1, fun q hlead hne => ?_⟩
  obtain ⟨t, ht⟩ := (h e he).2 q hlead hne
  exact ⟨t, (entryAt?_addFolder now hfree).1 q t ht⟩

/-- No place above one that may be written to is a file. -/
theorem lookup_eq_none_of_above {p : Place}
    (h : ((above p).any fun q => (d.files.lookup q).isSome) ≠ true) {q : Place} (hlead : q <+: p)
    (hne : q ≠ p) : d.files.lookup q = none := by
  by_contra hsome
  refine h (List.any_eq_true.mpr ⟨q, mem_above.mpr ⟨hlead, hne⟩, ?_⟩)
  exact Option.isSome_iff_ne_none.mpr hsome

theorem makeFolder_cases {now : Nat} {path : String} {d' : Disk} (hd : d.makeFolder now path = .ok d') :
    d' = d ∨ ∃ p, d' = d.addFolder now p ∧ ∀ q, q <+: p → d.files.lookup q = none := by
  simp only [Disk.makeFolder] at hd
  generalize wouldBe path = p at hd
  split at hd
  · cases hd
    exact .inl rfl
  · cases hd
  · rename_i hnothing
    split at hd
    · cases hd
    · rename_i habove
      cases hd
      refine .inr ⟨p, rfl, fun q hlead => ?_⟩
      rcases eq_or_ne q p with rfl | hne
      · by_contra hsome
        obtain ⟨data, hdata⟩ := Option.ne_none_iff_exists'.mp hsome
        rw [entryAt?, hdata] at hnothing
        cases hnothing
      · exact lookup_eq_none_of_above habove hlead hne

theorem FoldersHold.makeFolder (h : d.FoldersHold) {now : Nat} {path : String} {d' : Disk}
    (hd : d.makeFolder now path = .ok d') : d'.FoldersHold := by
  rcases makeFolder_cases hd with rfl | ⟨p, rfl, hfree⟩
  · exact h
  · exact h.addFolder hfree

theorem files_makeFolder {now : Nat} {path : String} {d' : Disk} (hd : d.makeFolder now path = .ok d') :
    d'.files = d.files := by
  rcases makeFolder_cases hd with rfl | ⟨p, rfl, -⟩
  · rfl
  · exact files_addFolder d now _

/-- Making a folder leaves the others as they are. -/
theorem entryAt?_makeFolder {now : Nat} {path : String} {d' : Disk}
    (hd : d.makeFolder now path = .ok d') {q : Place} {t : Nat} (h : d.entryAt? q = some (.folder t)) :
    d'.entryAt? q = some (.folder t) := by
  rcases makeFolder_cases hd with rfl | ⟨p, rfl, hfree⟩
  · exact h
  · exact (entryAt?_addFolder now hfree).1 q t h

theorem FoldersHold.write (h : d.FoldersHold) {now : Nat} {path : String} {data : FileData} {d' : Disk}
    (hd : d.write now path data = .ok d') : d'.FoldersHold := by
  simp only [Disk.write] at hd
  generalize wouldBe path = p at hd
  split at hd
  · cases hd
  · rename_i hnotFolder
    split at hd
    · cases hd
    · rename_i habove
      cases hd
      have hbelow : p ≠ [] := by
        rintro rfl
        refine hnotFolder 0 (entryAt?_eq_folder.mpr ⟨List.lookup_eq_none_iff.mpr fun e he => ?_, rfl⟩)
        exact bne_iff_ne.mpr (h e he).1.symm
      have hfree : ∀ q, q <+: p.dropLast → d.files.lookup q = none := by
        intro q hlead
        refine lookup_eq_none_of_above habove (hlead.trans (List.dropLast_prefix p)) ?_
        rintro rfl
        have hlength := hlead.length_le
        rw [List.length_dropLast] at hlength
        have := List.length_pos_iff.mpr hbelow
        omega
      obtain ⟨hkept, hadded⟩ := entryAt?_addFolder now hfree
      have hother {q : Place} (hne : q ≠ p) {t : Nat}
          (ht : (d.addFolder now p.dropLast).entryAt? q = some (.folder t)) :
          Disk.entryAt? { d.addFolder now p.dropLast with
            files := (d.addFolder now p.dropLast).files.filter (·.1 != p) ++ [(p, data)] } q =
            some (.folder t) := by
        rw [entryAt?_eq_folder] at ht ⊢
        refine ⟨?_, ht.2⟩
        rw [List.lookup_append, lookup_filter_keys (f := (· != p)) (by simpa using hne), ht.1,
          List.lookup_cons, beq_false_of_ne hne]
        rfl
      intro e he
      rcases List.mem_append.mp he with he | he
      · rw [files_addFolder] at he
        have hin := h e (List.mem_of_mem_filter he)
        refine ⟨hin.1, fun q hlead hne => ?_⟩
        obtain ⟨t, ht⟩ := hin.2 q hlead hne
        have hq : q ≠ p := by
          rintro rfl
          exact hnotFolder t ht
        exact ⟨t, hother hq (hkept q t ht)⟩
      · rw [List.mem_singleton.mp he]
        refine ⟨hbelow, fun q hlead hne => ?_⟩
        obtain ⟨t, ht⟩ := hadded q (prefix_dropLast hlead hne)
        exact ⟨t, hother hne ht⟩

theorem FoldersHold.remove (h : d.FoldersHold) {path : String} {d' : Disk}
    (hd : d.remove path = .ok d') : d'.FoldersHold := by
  rw [Disk.remove] at hd
  cases hp : d.locate path with
  | error e =>
    rw [hp] at hd
    cases hd
  | ok p =>
    rw [hp] at hd
    cases hd
    intro e he
    obtain ⟨he, houtside⟩ := List.mem_filter.mp he
    refine ⟨(h e he).1, fun q hlead hne => ?_⟩
    obtain ⟨t, ht⟩ := (h e he).2 q hlead hne
    have hq : (!p.isPrefixOf q) = true := by
      rw [Bool.not_eq_true', Bool.eq_false_iff, Ne, List.isPrefixOf_iff_prefix] at houtside ⊢
      exact fun hp => houtside (hp.trans hlead)
    refine ⟨t, ?_⟩
    rw [entryAt?_eq_folder] at ht ⊢
    rw [lookup_filter_keys (f := fun r => !p.isPrefixOf r) hq,
      lookup_filter_keys (f := fun r => !p.isPrefixOf r) hq]
    exact ht

end Disk

/-! ## Scans -/

namespace Disk

variable {d : Disk}

/-- A walk that succeeds may be gone on with, whether or not fillers follow it. -/
theorem walk_append {p q : Place} {segments fillers rest : List String}
    (hfillers : ∀ s ∈ fillers, Path.isFiller s = true) (h : d.walk p (segments ++ fillers) = .ok q) :
    d.walk p (segments ++ rest) = d.walk q rest := by
  induction segments generalizing p with
  | nil =>
    have hplace : q = p.follow fillers := eq_follow_of_walk h
    have hstays : p.follow fillers = p := by
      clear h hplace
      induction fillers with
      | nil => rfl
      | cons s fillers ih =>
        rw [Place.follow, if_pos (hfillers s List.mem_cons_self)]
        exact ih fun t ht => hfillers t (List.mem_cons_of_mem _ ht)
    rw [List.nil_append, hplace, hstays]
  | cons s segments ih =>
    rw [List.cons_append, walk] at h ⊢
    split at h
    · cases h
    · cases h
    · split at h
      · rename_i hfiller
        rw [if_pos hfiller]
        exact ih h
      · rename_i hfiller
        rw [if_neg hfiller]
        split at h
        · rename_i hparent
          rw [if_pos hparent]
          exact ih h
        · rename_i hparent
          rw [if_neg hparent]
          exact ih h

/-- From a place the names of a file below it lead to the file. -/
theorem walk_names (h : d.FoldersHold) {p : Place} {names : List String} (hnames : Place.Named names)
    {data : FileData} (hmem : (p ++ names, data) ∈ d.files) : d.walk p names = .ok (p ++ names) := by
  induction names generalizing p with
  | nil =>
    rw [List.append_nil] at hmem ⊢
    rw [walk, if_pos (isSome_entryAt?_of_mem hmem)]
  | cons s names ih =>
    have hs : Path.IsName s := hnames s List.mem_cons_self
    have hne : p ≠ p ++ s :: names := by simp
    obtain ⟨t, hfolder⟩ := (h _ hmem).2 p (List.prefix_append _ _) hne
    have hsplit : p ++ s :: names = (p ++ [s]) ++ names := by simp
    rw [hsplit] at hmem ⊢
    rw [walk, hfolder]
    simp only [hs.not_filler, Bool.false_eq_true, if_false, beq_iff_eq, hs.not_parent]
    exact ih (hnames.mono (List.subset_cons_self s names)) hmem

theorem locate_join {root : String} {p : Place} (hroot : d.locate root = .ok p) {names : List String}
    (hnames : Place.Named names) (hne : names ≠ []) :
    d.locate (Path.join root ("/".intercalate names)) = d.walk p names := by
  rw [locate] at hroot
  split at hroot
  · rename_i habs
    have hmore := Path.not_isAbsolute_intercalate hnames hne
    obtain ⟨hstill, first, segments, fillers, hfillers, hsplit, hjoin⟩ :=
      Path.split_join (Path.ne_empty_of_isAbsolute habs) hmore
    rw [hsplit] at hroot
    rw [locate, hstill, if_pos habs, hjoin, Text.split_intercalate hnames hne]
    exact walk_append hfillers hroot
  · cases hroot

/-! ## What paths lead to -/

section Found

variable {path text : String} {p : Place} {e : Entry} {data : FileData}

theorem find_of_locate (hp : d.locate path = .ok p) (he : d.entryAt? p = some e) : d.find path = .ok e := by
  simp [find, hp, he, Bind.bind, Except.bind, pure, Except.pure]

theorem entryAt?_eq_file : d.entryAt? p = some (.file data) ↔ d.files.lookup p = some data := by
  constructor
  · intro h
    cases hlookup : d.files.lookup p with
    | none =>
      rw [entryAt?, hlookup] at h
      dsimp only at h
      split at h
      · cases h
      · obtain ⟨t, -, ht⟩ := Option.map_eq_some_iff.mp h
        cases ht
    | some found =>
      rw [entryAt?, hlookup] at h
      cases h
      rfl
  · intro h
    rw [entryAt?, h]

theorem find_eq_ok : d.find path = .ok e ↔ ∃ p, d.locate path = .ok p ∧ d.entryAt? p = some e := by
  constructor
  · intro h
    rw [find] at h
    cases hp : d.locate path with
    | error err =>
      rw [hp] at h
      cases h
    | ok p =>
      rw [hp] at h
      simp only [Bind.bind, Except.bind] at h
      split at h
      · rename_i found hfound
        cases h
        exact ⟨p, rfl, hfound⟩
      · cases h
  · rintro ⟨p, hp, he⟩
    exact find_of_locate hp he

theorem isFolder_eq_true :
    d.isFolder path = true ↔ ∃ p t, d.locate path = .ok p ∧ d.entryAt? p = some (.folder t) := by
  constructor
  · intro h
    rw [isFolder] at h
    split at h
    · rename_i t hfind
      obtain ⟨p, hp, he⟩ := find_eq_ok.mp hfind
      exact ⟨p, t, hp, he⟩
    · cases h
  · rintro ⟨p, t, hp, he⟩
    rw [isFolder, find_of_locate hp he]

theorem readBytes_of_locate (hat : d.locate path = .ok p) (hthere : d.files.lookup p = some data) :
    d.readBytes path = .ok data.bytes := by
  rw [readBytes, find_of_locate hat (entryAt?_eq_file.mpr hthere)]
  rfl

theorem readText_eq_ok :
    d.readText path = .ok text ↔ ∃ p data, d.locate path = .ok p ∧ d.files.lookup p = some data ∧
      String.fromUTF8? data.bytes = some text := by
  constructor
  · intro h
    cases hfind : d.find path with
    | error err =>
      rw [readText, readBytes, hfind] at h
      cases h
    | ok e =>
      obtain ⟨p, hp, he⟩ := find_eq_ok.mp hfind
      rw [readText, readBytes, hfind] at h
      cases e with
      | folder t => cases h
      | file data =>
        simp only [Bind.bind, Except.bind, pure, Except.pure] at h
        split at h
        · rename_i found hfound
          cases h
          exact ⟨p, data, hp, entryAt?_eq_file.mp he, hfound⟩
        · cases h
  · rintro ⟨p, data, hp, hdata, htext⟩
    rw [readText, readBytes_of_locate hp hdata]
    simp only [Bind.bind, Except.bind, htext, pure, Except.pure]

end Found

end Disk

/-! ## The same file on two disks -/

theorem Place.follow_eq_append {q : Place} {segments : List String} {names : Place}
    (h : segments.filterMap Path.Component.ofSegment? = names.map .name) :
    q.follow segments = q ++ names := by
  induction segments generalizing q names with
  | nil =>
    obtain rfl : names = [] := by simpa [eq_comm] using h
    rw [follow, List.append_nil]
  | cons s segments ih =>
    rw [List.filterMap_cons] at h
    rw [follow]
    rcases Path.ofSegment?_cases s with ⟨hfiller, hs⟩ | ⟨-, -, hs⟩ | ⟨hfiller, hparent, hs⟩
    · rw [hs] at h
      rw [if_pos hfiller]
      exact ih h
    · rw [hs] at h
      cases names with
      | nil => exact absurd h (List.cons_ne_nil _ _)
      | cons t names => cases (List.cons.inj h).1
    · rw [hs] at h
      rw [if_neg (by simp [hfiller]), if_neg (by simpa using hparent)]
      cases names with
      | nil => exact absurd h (List.cons_ne_nil _ _)
      | cons t names =>
        obtain ⟨hst, hrest⟩ := List.cons.inj h
        cases hst
        rw [ih hrest, List.append_assoc]
        rfl

namespace Disk

variable {d d' : Disk} {p q : Place} {data data' : FileData}

/-- A walk down to a file goes on another disk as well, when the file is there. -/
theorem walk_again {segments : List String} {names : Place}
    (hnames : segments.filterMap Path.Component.ofSegment? = names.map .name)
    (h : d.walk q segments = .ok p) (hfile : d.entryAt? p = some (.file data))
    (hfolders : d'.FoldersHold) (hmem : (p, data') ∈ d'.files) : d'.walk q segments = .ok p := by
  induction segments generalizing q names with
  | nil =>
    obtain rfl : p = q := eq_follow_of_walk h
    rw [walk, if_pos (isSome_entryAt?_of_mem hmem)]
  | cons s segments ih =>
    have hplace : p = q ++ names := (eq_follow_of_walk h).trans (Place.follow_eq_append hnames)
    rw [walk] at h
    split at h
    · cases h
    · cases h
    · rename_i t hfolder
      have hne : q ≠ p := by
        rintro rfl
        rw [hfile] at hfolder
        cases hfolder
      obtain ⟨t', hfolder'⟩ := (hfolders _ hmem).2 q (hplace ▸ List.prefix_append q names) hne
      rw [List.filterMap_cons] at hnames
      rw [walk, hfolder']
      dsimp only
      rcases Path.ofSegment?_cases s with ⟨hfiller, hs⟩ | ⟨-, -, hs⟩ | ⟨hfiller, hparent, hs⟩
      · rw [hs] at hnames
        rw [if_pos hfiller] at h ⊢
        exact ih hnames h
      · rw [hs] at hnames
        cases names with
        | nil => exact absurd hnames (List.cons_ne_nil _ _)
        | cons t names => cases (List.cons.inj hnames).1
      · rw [hs] at hnames
        rw [if_neg (by simp [hfiller]), if_neg (by simpa using hparent)] at h ⊢
        cases names with
        | nil => exact absurd hnames (List.cons_ne_nil _ _)
        | cons t names => exact ih (List.cons.inj hnames).2 h

/-- The same, when the walk begins with a step up at the root. -/
theorem walk_again_parent {segments : List String} {names : Place}
    (hnames : segments.filterMap Path.Component.ofSegment? = .parent :: names.map .name)
    (h : d.walk [] segments = .ok p) (hfile : d.entryAt? p = some (.file data))
    (hfolders : d'.FoldersHold) (hmem : (p, data') ∈ d'.files) : d'.walk [] segments = .ok p := by
  induction segments with
  | nil => cases hnames
  | cons s segments ih =>
    obtain ⟨t', hfolder'⟩ := (hfolders _ hmem).2 [] List.nil_prefix (Ne.symm (hfolders _ hmem).1)
    rw [walk] at h
    split at h
    · cases h
    · cases h
    · rw [List.filterMap_cons] at hnames
      rw [walk, hfolder']
      dsimp only
      rcases Path.ofSegment?_cases s with ⟨hfiller, hs⟩ | ⟨hfiller, hparent, hs⟩ | ⟨-, -, hs⟩
      · rw [hs] at hnames
        rw [if_pos hfiller] at h ⊢
        exact ih hnames h
      · rw [hs] at hnames
        rw [if_neg (by simp [hfiller]), if_pos (by simpa using hparent)] at h ⊢
        exact walk_again (List.cons.inj hnames).2 h hfile hfolders hmem
      · rw [hs] at hnames
        cases (List.cons.inj hnames).1

/-- A path straight down to a file leads there on another disk as well, when the file is there. -/
theorem locate_again {path : String} (hpath : Path.Straight path) (h : d.locate path = .ok p)
    (hfile : d.entryAt? p = some (.file data)) (hfolders : d'.FoldersHold)
    (hmem : (p, data') ∈ d'.files) : d'.locate path = .ok p := by
  obtain ⟨names, -, hcomponents⟩ := hpath
  rw [locate] at h ⊢
  split at h
  · rename_i habs
    obtain ⟨first, segments, hsplit⟩ := List.exists_cons_of_ne_nil (Text.split_ne_nil path)
    have hsteps : Path.components path = .root :: segments.filterMap Path.Component.ofSegment? := by
      simp [Path.components, hsplit, habs]
    rw [hsteps] at hcomponents
    rw [hsplit] at h ⊢
    rw [if_pos habs]
    rcases hcomponents with hnames | hnames
    · exact walk_again (List.cons.inj hnames).2 h hfile hfolders hmem
    · exact walk_again_parent (List.cons.inj hnames).2 h hfile hfolders hmem
  · cases h

end Disk

/-- What a scan lists is there, however the root is spelled. -/
theorem Scan.modifiedMs_of_mem_paths (hnamed : d.FilesNamed) (hfolders : d.FoldersHold)
    {acrossProjects : Bool} {root path : String} (h : path ∈ paths d acrossProjects root) :
    ∃ t, d.modifiedMs path = .ok t := by
  rw [paths, pathsBy] at h
  cases hp : d.locate root with
  | error e =>
    rw [hp] at h
    cases h
  | ok p =>
    rw [hp] at h
    dsimp only at h
    split at h
    · rename_i data hfile
      rw [List.mem_singleton.mp h, Disk.modifiedMs, Disk.find_of_locate hp hfile]
      exact ⟨_, rfl⟩
    · obtain ⟨names, hnames, rfl⟩ := List.mem_map.mp h
      obtain ⟨hne, ⟨q, data⟩, hmem, rfl⟩ := mem_placesBelow sound_shownFiles hnames
      have hproper : Place.Named names := (hnamed _ hmem).mono (List.subset_append_right p names)
      have hat := (Disk.locate_join hp hproper hne).trans (Disk.walk_names hfolders hproper hmem)
      obtain ⟨e, he⟩ := Option.isSome_iff_exists.mp (Disk.isSome_entryAt?_of_mem hmem)
      rw [Disk.modifiedMs, Disk.find_of_locate hat he]
      exact ⟨_, rfl⟩

end SolutionAtlas
