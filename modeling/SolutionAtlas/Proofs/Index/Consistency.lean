-- SUMMARY: The two tables of a symbol index agree, and every operation keeps it so.
import Mathlib
import SolutionAtlas.Index.Basic
import SolutionAtlas.Proofs.Table

/-!
# Consistency of the symbol index

An index holds its entries twice: by key, and as keys by lower-case name. `Consistent` says that the
second table is determined by the first. Each operation is described by what it does to the look-up
by key alone; that the table of names follows is proved here once and not looked at again.
-/

namespace SolutionAtlas.SymbolIndex

/-! ## Buckets of keys -/

theorem mem_insertKey {key k : String} {keys : List String} :
    k ∈ insertKey key keys ↔ k = key ∨ k ∈ keys := by
  induction keys with
  | nil => simp [insertKey]
  | cons q keys ih =>
    simp only [insertKey]
    split
    · simp
    · split
      · rename_i heq
        simp [heq]
      · rw [List.mem_cons, ih, List.mem_cons]
        tauto

theorem insertKey_ascending {key : String} {keys : List String} (h : keys.Pairwise (· < ·)) :
    (insertKey key keys).Pairwise (· < ·) := by
  induction keys with
  | nil => exact List.pairwise_singleton _ _
  | cons q keys ih =>
    obtain ⟨hhead, htail⟩ := List.pairwise_cons.mp h
    simp only [insertKey]
    split
    · rename_i hlt
      refine List.pairwise_cons.mpr ⟨fun k hk => ?_, h⟩
      rcases List.mem_cons.mp hk with rfl | hk
      · exact hlt
      · exact lt_trans hlt (hhead k hk)
    · split
      · exact h
      · rename_i hnlt hne
        refine List.pairwise_cons.mpr ⟨fun k hk => ?_, ih htail⟩
        rcases mem_insertKey.mp hk with rfl | hk
        · exact lt_of_le_of_ne (not_lt.mp hnlt) (Ne.symm hne)
        · exact hhead k hk

theorem insertKey_ne_nil (key : String) (keys : List String) : insertKey key keys ≠ [] :=
  List.ne_nil_of_mem (mem_insertKey.mpr (.inl rfl))

/-- The keys under a name, none when the name has no bucket. -/
def keysUnder (names : Table (List String)) (name : String) : List String :=
  (names.get? name).getD []

theorem keysUnder_enterName (bucket key name : String) (names : Table (List String)) :
    keysUnder (enterName bucket key names) name =
      if bucket = name then insertKey key (keysUnder names name) else keysUnder names name := by
  unfold keysUnder enterName
  rw [Table.get?_insert]
  split
  · rename_i h
    rw [h, Option.getD_some]
  · rfl

theorem keysUnder_pruneName (bucket key name : String) (names : Table (List String)) :
    keysUnder (pruneName bucket key names) name =
      if bucket = name then (keysUnder names name).filter (· != key) else keysUnder names name := by
  unfold keysUnder pruneName
  split
  · rename_i hb
    split
    · rename_i h
      rw [← h, hb]
      rfl
    · rfl
  · rename_i keys hb
    dsimp only
    split
    · rename_i hempty
      rw [Table.get?_erase]
      split
      · rename_i h
        rw [← h, hb]
        exact (List.isEmpty_iff.mp hempty).symm
      · rfl
    · rw [Table.get?_insert]
      split
      · rename_i h
        rw [← h, hb]
        rfl
      · rfl

/-- Names ascend, each has a key, and the keys of each ascend. -/
structure WellKept (names : Table (List String)) : Prop where
  ascending : names.Ascending
  keysAscend : ∀ name, (keysUnder names name).Pairwise (· < ·)
  nonempty : ∀ name keys, names.get? name = some keys → keys ≠ []

namespace WellKept

variable {names : Table (List String)}

theorem enterName (h : WellKept names) (bucket key : String) :
    WellKept (enterName bucket key names) where
  ascending := h.ascending.insert _ _
  keysAscend := by
    intro name
    rw [keysUnder_enterName]
    split
    · exact insertKey_ascending (h.keysAscend name)
    · exact h.keysAscend name
  nonempty := by
    intro name keys hkeys
    unfold SymbolIndex.enterName at hkeys
    rw [Table.get?_insert] at hkeys
    split at hkeys
    · cases hkeys
      exact insertKey_ne_nil _ _
    · exact h.nonempty name keys hkeys

theorem pruneName (h : WellKept names) (bucket key : String) :
    WellKept (pruneName bucket key names) where
  ascending := by
    unfold SymbolIndex.pruneName
    split
    · exact h.ascending
    · dsimp only
      split
      · exact h.ascending.erase _
      · exact h.ascending.insert _ _
  keysAscend := by
    intro name
    rw [keysUnder_pruneName]
    split
    · exact (h.keysAscend name).filter _
    · exact h.keysAscend name
  nonempty := by
    intro name keys hkeys
    unfold SymbolIndex.pruneName at hkeys
    split at hkeys
    · exact h.nonempty name keys hkeys
    · dsimp only at hkeys
      split at hkeys
      · rw [Table.get?_erase] at hkeys
        split at hkeys
        · cases hkeys
        · exact h.nonempty name keys hkeys
      · rename_i hkept
        rw [Table.get?_insert] at hkeys
        split at hkeys
        · cases hkeys
          exact fun hnil => hkept (List.isEmpty_iff.mpr hnil)
        · exact h.nonempty name keys hkeys

/-- No bucket is empty, so a table of names is determined by the keys under each name. -/
theorem ext {names names' : Table (List String)} (h : WellKept names) (h' : WellKept names')
    (hunder : ∀ name, keysUnder names name = keysUnder names' name) : names = names' := by
  refine h.ascending.ext h'.ascending fun name => ?_
  have hname := hunder name
  simp only [keysUnder] at hname
  cases hkeys : names.get? name with
  | none =>
    cases hkeys' : names'.get? name with
    | none => rfl
    | some keys =>
      simp only [hkeys, hkeys', Option.getD_none, Option.getD_some] at hname
      exact absurd hname.symm (h'.nonempty name keys hkeys')
  | some keys =>
    cases hkeys' : names'.get? name with
    | none =>
      simp only [hkeys, hkeys', Option.getD_none, Option.getD_some] at hname
      exact absurd hname (h.nonempty name keys hkeys)
    | some keys' =>
      simp only [hkeys, hkeys', Option.getD_some] at hname
      rw [hname]

end WellKept

/-! ## Consistency -/

/-- Every entry stands under its own key, and the keys under a name are those of the entries that
bear it. -/
structure Consistent (x : SymbolIndex) : Prop where
  ascending : x.byKey.Ascending
  names : WellKept x.byName
  keyed : ∀ key e, x.get? key = some e → e.key = key
  mem_bucket : ∀ name key, key ∈ x.bucketKeys name ↔ ∃ e, x.get? key = some e ∧ e.bucket = name

theorem Consistent.empty : Consistent SymbolIndex.empty where
  ascending := Table.Ascending.nil
  names := ⟨Table.Ascending.nil, fun _ => List.Pairwise.nil, by intro _ _ h; cases h⟩
  keyed := by intro _ _ h; cases h
  mem_bucket := by
    intro name key
    constructor
    · intro h; cases h
    · rintro ⟨_, h, _⟩; cases h

/-! ## Operations, by what they do to look-ups -/

variable {x : SymbolIndex}

theorem contains_iff {key : String} : x.contains key = true ↔ ∃ e, x.get? key = some e :=
  Table.contains_iff

@[simp] theorem get?_empty (key : String) : SymbolIndex.empty.get? key = none := rfl

theorem get?_upsert (x : SymbolIndex) (e : IndexEntry) (key : String) :
    (x.upsert e).get? key = if e.key = key then some e else x.get? key :=
  Table.get?_insert _ _ _ _

theorem get?_remove (x : SymbolIndex) (e : IndexEntry) (key : String) :
    (x.remove e).get? key = if e.key = key then none else x.get? key :=
  Table.get?_erase _ _ _

theorem add_fst (x : SymbolIndex) (e : IndexEntry) : (x.add e).1 = !x.contains e.key := by
  unfold add
  split <;> simp_all

theorem get?_add (x : SymbolIndex) (e : IndexEntry) (key : String) :
    (x.add e).2.get? key = if e.key = key then some ((x.get? e.key).getD e) else x.get? key := by
  unfold add
  split
  · rename_i hheld
    obtain ⟨old, hold⟩ := contains_iff.mp hheld
    split
    · rename_i hkey
      rw [hold, ← hkey, hold, Option.getD_some]
    · rfl
  · rename_i hfree
    have hnone : x.get? e.key = none := by
      rw [Option.eq_none_iff_forall_ne_some]
      exact fun old hold => hfree (contains_iff.mpr ⟨old, hold⟩)
    rw [get?_upsert, hnone, Option.getD_none]

namespace Consistent

theorem mem_bucket_of_ne (h : Consistent x) {name key : String} {e : IndexEntry}
    (he : x.get? key = some e) (hne : e.bucket ≠ name) : key ∉ x.bucketKeys name := by
  intro hmem
  obtain ⟨d, hd, hbucket⟩ := (h.mem_bucket name key).mp hmem
  rw [he] at hd
  cases hd
  exact hne hbucket

theorem not_mem_bucket (h : Consistent x) {name key : String} (hnone : x.get? key = none) :
    key ∉ x.bucketKeys name := by
  intro hmem
  obtain ⟨d, hd, _⟩ := (h.mem_bucket name key).mp hmem
  rw [hnone] at hd
  cases hd

theorem renamed_wellKept (h : Consistent x) (e : IndexEntry) : WellKept (x.renamed e) := by
  unfold renamed
  split
  · split
    · exact h.names
    · exact h.names.pruneName _ _
  · exact h.names

/-- Under all names but that of the new entry, its key is gone. -/
theorem mem_renamed (h : Consistent x) {e : IndexEntry} {name key : String} (hname : e.bucket ≠ name) :
    key ∈ keysUnder (x.renamed e) name ↔ key ∈ x.bucketKeys name ∧ key ≠ e.key := by
  have hkeep (hnot : e.key ∉ x.bucketKeys name) :
      key ∈ x.bucketKeys name ↔ key ∈ x.bucketKeys name ∧ key ≠ e.key :=
    ⟨fun hk => ⟨hk, fun heq => hnot (heq ▸ hk)⟩, And.left⟩
  unfold renamed
  split
  · rename_i old hold
    split
    · rename_i hsame
      exact hkeep (h.mem_bucket_of_ne hold (hsame ▸ hname))
    · rw [keysUnder_pruneName]
      split
      · simp [bucketKeys, keysUnder]
      · rename_i hold'
        exact hkeep (h.mem_bucket_of_ne hold hold')
  · rename_i hnone
    exact hkeep (h.not_mem_bucket hnone)

/-- Under the name of the new entry nothing changes. -/
theorem keysUnder_renamed_self (e : IndexEntry) :
    keysUnder (x.renamed e) e.bucket = x.bucketKeys e.bucket := by
  unfold renamed
  split
  · split
    · rfl
    · rename_i hne
      rw [keysUnder_pruneName, if_neg hne]
      rfl
  · rfl

theorem upsert (h : Consistent x) (e : IndexEntry) : Consistent (x.upsert e) where
  ascending := h.ascending.insert _ _
  names := (h.renamed_wellKept e).enterName _ _
  keyed := by
    intro key d hd
    rw [get?_upsert] at hd
    split at hd
    · rename_i hkey
      cases hd
      exact hkey
    · exact h.keyed key d hd
  mem_bucket := by
    intro name key
    change key ∈ keysUnder (enterName e.bucket e.key (x.renamed e)) name ↔ _
    rw [keysUnder_enterName, get?_upsert]
    by_cases hname : e.bucket = name
    · subst hname
      rw [if_pos rfl, mem_insertKey, keysUnder_renamed_self, h.mem_bucket]
      by_cases hkey : e.key = key
      · simp [hkey]
      · simp [hkey, Ne.symm hkey]
    · rw [if_neg hname, h.mem_renamed hname, h.mem_bucket]
      by_cases hkey : e.key = key
      · simp [hkey, hname]
      · simp [hkey, Ne.symm hkey]

theorem remove (h : Consistent x) {e : IndexEntry} (he : x.get? e.key = some e) :
    Consistent (x.remove e) where
  ascending := h.ascending.erase _
  names := h.names.pruneName _ _
  keyed := by
    intro key d hd
    rw [get?_remove] at hd
    split at hd
    · cases hd
    · exact h.keyed key d hd
  mem_bucket := by
    intro name key
    change key ∈ keysUnder (pruneName e.bucket e.key x.byName) name ↔ _
    have hunder : keysUnder x.byName name = x.bucketKeys name := rfl
    rw [keysUnder_pruneName, get?_remove, hunder]
    by_cases hkey : e.key = key
    · subst hkey
      split
      · simp
      · rename_i hname
        simpa using h.mem_bucket_of_ne he hname
    · rw [if_neg hkey, ← h.mem_bucket]
      split
      · simpa using fun _ => Ne.symm hkey
      · rfl

theorem add (h : Consistent x) (e : IndexEntry) : Consistent (x.add e).2 := by
  unfold SymbolIndex.add
  split
  · exact h
  · exact h.upsert e

end Consistent

/-! ## Taking entries out -/

/-- Entries that stand in the index under their own keys may be taken out in any order. -/
theorem Consistent.foldl_remove {es : List IndexEntry} (h : Consistent x)
    (hnodup : (es.map (·.key)).Nodup) (hes : ∀ e ∈ es, x.get? e.key = some e) :
    Consistent (es.foldl SymbolIndex.remove x) ∧
      ∀ key, (es.foldl SymbolIndex.remove x).get? key =
        if key ∈ es.map (·.key) then none else x.get? key := by
  induction es generalizing x with
  | nil => exact ⟨h, fun _ => rfl⟩
  | cons e es ih =>
    obtain ⟨hfresh, hnodup⟩ := List.nodup_cons.mp hnodup
    have hes' : ∀ d ∈ es, (x.remove e).get? d.key = some d := by
      intro d hd
      have hne : e.key ≠ d.key := fun heq =>
        hfresh (List.mem_map.mpr ⟨d, hd, heq.symm⟩)
      rw [get?_remove, if_neg hne]
      exact hes d (List.mem_cons_of_mem _ hd)
    obtain ⟨hcons, hget⟩ := ih (h.remove (hes e List.mem_cons_self)) hnodup hes'
    refine ⟨hcons, fun key => ?_⟩
    rw [List.foldl_cons, hget, get?_remove, List.map_cons]
    by_cases hkey : e.key = key
    · simp [hkey]
    · simp [hkey, Ne.symm hkey]

theorem Consistent.mem_snapshot_iff (h : Consistent x) {e : IndexEntry} :
    e ∈ x.snapshot ↔ x.get? e.key = some e := by
  rw [snapshot, h.ascending.mem_values_iff]
  constructor
  · rintro ⟨key, hkey⟩
    have hself := h.keyed key e hkey
    subst hself
    exact hkey
  · exact fun he => ⟨e.key, he⟩

theorem Consistent.keys_snapshot (h : Consistent x) :
    x.snapshot.map (·.key) = x.byKey.keys := by
  rw [snapshot, Table.values, Table.keys, List.map_map]
  apply List.map_congr_left
  rintro ⟨key, e⟩ hmem
  exact h.keyed key e (h.ascending.get?_of_mem hmem)

/-- The index once all entries that satisfy a condition are taken out. -/
def without (x : SymbolIndex) (doomed : IndexEntry → Prop) [DecidablePred doomed] : SymbolIndex :=
  (x.snapshot.filter (doomed ·)).foldl remove x

section Without

variable {doomed : IndexEntry → Prop} [DecidablePred doomed]

theorem Consistent.removable (h : Consistent x) (doomed : IndexEntry → Prop) [DecidablePred doomed] :
    ((x.snapshot.filter (doomed ·)).map (·.key)).Nodup ∧
      ∀ e ∈ x.snapshot.filter (doomed ·), x.get? e.key = some e := by
  constructor
  · have hkeys : (x.snapshot.map (·.key)).Nodup := h.keys_snapshot ▸ h.ascending.keys_nodup
    exact hkeys.sublist (List.Sublist.map _ List.filter_sublist)
  · intro e he
    exact h.mem_snapshot_iff.mp (List.mem_of_mem_filter he)

theorem Consistent.without (h : Consistent x) : Consistent (x.without doomed) := by
  obtain ⟨hnodup, hmem⟩ := h.removable doomed
  exact (h.foldl_remove hnodup hmem).1

/-- What stays are the entries that do not satisfy the condition. -/
theorem Consistent.get?_without (h : Consistent x) (key : String) :
    (x.without doomed).get? key = (x.get? key).filter fun e => !decide (doomed e) := by
  obtain ⟨hnodup, hmem⟩ := h.removable doomed
  refine ((h.foldl_remove hnodup hmem).2 key).trans ?_
  cases hkey : x.get? key with
  | none => simp
  | some e =>
    have hself : e.key = key := h.keyed key e hkey
    have hlisted : key ∈ (x.snapshot.filter (doomed ·)).map (·.key) ↔ doomed e := by
      constructor
      · intro hin
        obtain ⟨d, hd, hdkey⟩ := List.mem_map.mp hin
        have hd' := hmem d hd
        rw [hdkey, hkey] at hd'
        cases hd'
        exact of_decide_eq_true (List.mem_filter.mp hd).2
      · intro hdoomed
        subst hself
        exact List.mem_map_of_mem
          (List.mem_filter.mpr ⟨h.mem_snapshot_iff.mpr hkey, decide_eq_true hdoomed⟩)
    by_cases hdoomed : doomed e
    · rw [if_pos (hlisted.mpr hdoomed)]
      simp [Option.filter, hdoomed]
    · rw [if_neg (fun hin => hdoomed (hlisted.mp hin))]
      simp [Option.filter, hdoomed]

end Without

/-- The entries declared in a file. -/
def declaredIn (x : SymbolIndex) (file : String) : List IndexEntry :=
  x.snapshot.filter (·.symbol.isDeclaredIn file)

theorem invalidate_fst (x : SymbolIndex) (file : String) :
    (x.invalidate file).1 = (x.declaredIn file).length := rfl

theorem invalidate_snd (x : SymbolIndex) (file : String) :
    (x.invalidate file).2 = x.without (·.symbol.isDeclaredIn file = true) := by
  simp only [invalidate, without, snapshot, Bool.decide_eq_true]

theorem Consistent.invalidate (h : Consistent x) (file : String) :
    Consistent (x.invalidate file).2 := by
  rw [invalidate_snd]
  exact h.without

/-- What stays after a file is invalidated are the entries that are not declared in it. -/
theorem Consistent.get?_invalidate (h : Consistent x) (file key : String) :
    (x.invalidate file).2.get? key = (x.get? key).filter (!·.symbol.isDeclaredIn file) := by
  rw [invalidate_snd, h.get?_without]
  simp only [Bool.decide_eq_true]

/-- An index is determined by its look-ups. -/
theorem Consistent.ext {y : SymbolIndex} (hx : x.Consistent) (hy : y.Consistent)
    (h : ∀ key, x.get? key = y.get? key) : x = y := by
  have hkeys : x.byKey = y.byKey := hx.ascending.ext hy.ascending h
  have hunder (name : String) : keysUnder x.byName name = keysUnder y.byName name := by
    have hmem : ∀ key, key ∈ keysUnder x.byName name ↔ key ∈ keysUnder y.byName name := by
      intro key
      refine (hx.mem_bucket name key).trans (Iff.trans ?_ (hy.mem_bucket name key).symm)
      simp only [h]
    have hnodup {names : Table (List String)} (hn : WellKept names) : (keysUnder names name).Nodup :=
      (hn.keysAscend name).imp ne_of_lt
    exact ((List.perm_ext_iff_of_nodup (hnodup hx.names) (hnodup hy.names)).mpr hmem).eq_of_pairwise
      (fun _ _ _ _ hab hba => absurd hba (lt_asymm hab)) (hx.names.keysAscend name)
      (hy.names.keysAscend name)
  have hnames : x.byName = y.byName := hx.names.ext hy.names hunder
  obtain ⟨byKey, byName⟩ := x
  obtain ⟨byKey', byName'⟩ := y
  simp only at hkeys hnames
  rw [hkeys, hnames]

/-! ## Look-ups by name -/

theorem Consistent.snapshot_ascending (h : Consistent x) :
    x.snapshot.Pairwise fun d e => d.key < e.key := by
  have hkeys : (x.snapshot.map (·.key)).Pairwise (· < ·) :=
    h.keys_snapshot ▸ List.pairwise_map.mpr h.ascending
  exact List.pairwise_map.mp hkeys

/-- Entries in order of their keys are equal as lists when they are as sets. -/
theorem eq_of_ascending {es ds : List IndexEntry} (hes : es.Pairwise fun a b => a.key < b.key)
    (hds : ds.Pairwise fun a b => a.key < b.key) (h : ∀ e, e ∈ es ↔ e ∈ ds) : es = ds := by
  have hnodup {cs : List IndexEntry} (hcs : cs.Pairwise fun a b => a.key < b.key) : cs.Nodup :=
    hcs.imp fun hlt heq => absurd (congrArg IndexEntry.key heq) (ne_of_lt hlt)
  exact ((List.perm_ext_iff_of_nodup (hnodup hes) (hnodup hds)).mpr h).eq_of_pairwise
    (fun _ _ _ _ hab hba => absurd hba (lt_asymm hab)) hes hds

/-- The entries found by a name are those that bear it, in order of their keys. -/
theorem Consistent.byNameOf_eq (h : Consistent x) (name : String) :
    x.byNameOf name = x.snapshot.filter (·.bucket == Text.lower name) := by
  have hfound : (x.byNameOf name).Pairwise fun d e => d.key < e.key := by
    refine List.pairwise_filterMap.mpr ((h.names.keysAscend _).imp ?_)
    intro k l hkl d hd e he
    rw [h.keyed k d hd, h.keyed l e he]
    exact hkl
  refine eq_of_ascending hfound (h.snapshot_ascending.filter _) fun e => ?_
  rw [byNameOf, List.mem_filterMap, List.mem_filter, h.mem_snapshot_iff, beq_iff_eq]
  constructor
  · rintro ⟨key, hmem, hget⟩
    obtain ⟨d, hd, hbucket⟩ := (h.mem_bucket _ key).mp hmem
    rw [hget] at hd
    cases hd
    have hself := h.keyed key e hget
    subst hself
    exact ⟨hget, hbucket⟩
  · rintro ⟨hget, hbucket⟩
    exact ⟨e.key, (h.mem_bucket _ _).mpr ⟨e, hget, hbucket⟩, hget⟩

/-- A name has a bucket exactly when an entry bears it. -/
theorem Consistent.mem_names_iff (h : Consistent x) (name : String) :
    name ∈ x.byName.keys ↔ ∃ e ∈ x.snapshot, e.bucket = name := by
  rw [Table.mem_keys_iff]
  constructor
  · rintro ⟨keys, hkeys⟩
    obtain ⟨key, hkey⟩ := List.exists_mem_of_ne_nil keys (h.names.nonempty name keys hkeys)
    have hmem : key ∈ x.bucketKeys name := by
      rw [bucketKeys, hkeys]
      exact hkey
    obtain ⟨e, he, hbucket⟩ := (h.mem_bucket name key).mp hmem
    have hself := h.keyed key e he
    subst hself
    exact ⟨e, h.mem_snapshot_iff.mpr he, hbucket⟩
  · rintro ⟨e, he, hbucket⟩
    have hmem : e.key ∈ x.bucketKeys name :=
      (h.mem_bucket name e.key).mpr ⟨e, h.mem_snapshot_iff.mp he, hbucket⟩
    cases hkeys : x.byName.get? name with
    | some keys => exact ⟨keys, rfl⟩
    | none =>
      rw [bucketKeys, hkeys] at hmem
      cases hmem

theorem Consistent.bucketCount_eq (h : Consistent x) :
    x.bucketCount = (x.snapshot.map (·.bucket)).dedup.length := by
  have hperm : x.byName.keys.Perm (x.snapshot.map (·.bucket)).dedup := by
    refine (List.perm_ext_iff_of_nodup h.names.ascending.keys_nodup (List.nodup_dedup _)).mpr ?_
    intro name
    rw [h.mem_names_iff, List.mem_dedup, List.mem_map]
  rw [bucketCount, ← hperm.length_eq, Table.keys, List.length_map]

end SolutionAtlas.SymbolIndex
