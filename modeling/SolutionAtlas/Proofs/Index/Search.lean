-- SUMMARY: What a search of the symbol index lists, in which order, after every run of commands.
import Mathlib
import SolutionAtlas.Proofs.Index.Refinement
import SolutionAtlas.Proofs.Text.Occurrence

/-!
# Search of the index

A search puts together what stands in the buckets of the names it matches. Each key stands in one bucket, so
nothing is listed twice; a key in a bucket has an entry of that name, so nothing is missing. The order of the
buckets does not show, since what they give is sorted by names and keys.
-/

namespace SolutionAtlas

/-! ## The order of hits -/

/-- By name first, then by key. -/
def IndexEntry.Precedes (d e : IndexEntry) : Prop :=
  d.symbol.name < e.symbol.name ∨ d.symbol.name = e.symbol.name ∧ d.key < e.key

theorem IndexEntry.Precedes.ne {d e : IndexEntry} (h : d.Precedes e) : d ≠ e := by
  rintro rfl
  rcases h with hname | ⟨-, hkey⟩
  · exact lt_irrefl _ hname
  · exact lt_irrefl _ hkey

namespace SymbolIndex

theorem nameThenKey_iff {d e : IndexEntry} :
    nameThenKey d e = true ↔
      d.symbol.name < e.symbol.name ∨ d.symbol.name = e.symbol.name ∧ d.key ≤ e.key := by
  unfold nameThenKey
  split
  · rename_i hname
    simp [hname]
  · rename_i hname
    simp [hname, lt_iff_le_and_ne]

theorem nameThenKey_trans {c d e : IndexEntry} (hcd : nameThenKey c d = true)
    (hde : nameThenKey d e = true) : nameThenKey c e = true := by
  rw [nameThenKey_iff] at hcd hde ⊢
  rcases hcd with hcd | ⟨hcd, hkey⟩
  · rcases hde with hde | ⟨hde, -⟩
    · exact .inl (lt_trans hcd hde)
    · exact .inl (hde ▸ hcd)
  · rcases hde with hde | ⟨hde, hkey'⟩
    · exact .inl (hcd ▸ hde)
    · exact .inr ⟨hcd.trans hde, le_trans hkey hkey'⟩

theorem nameThenKey_total (d e : IndexEntry) : (nameThenKey d e || nameThenKey e d) = true := by
  rw [Bool.or_eq_true, nameThenKey_iff, nameThenKey_iff]
  rcases lt_trichotomy d.symbol.name e.symbol.name with hname | hname | hname
  · exact .inl (.inl hname)
  · rcases le_total d.key e.key with hkey | hkey
    · exact .inl (.inr ⟨hname, hkey⟩)
    · exact .inr (.inr ⟨hname.symm, hkey⟩)
  · exact .inr (.inl hname)

/-- Entries of different keys are put in a strict order. -/
theorem mergeSort_precedes {es : List IndexEntry} (h : (es.map (·.key)).Nodup) :
    (es.mergeSort nameThenKey).Pairwise IndexEntry.Precedes := by
  have hsorted : (es.mergeSort nameThenKey).Pairwise fun d e => nameThenKey d e = true := by
    refine List.pairwise_mergeSort ?_ nameThenKey_total es
    intro c d e hcd hde
    exact nameThenKey_trans hcd hde
  have hkeys : ((es.mergeSort nameThenKey).map (·.key)).Nodup :=
    ((List.mergeSort_perm es nameThenKey).map _).nodup_iff.mpr h
  refine hsorted.imp₂ ?_ (List.pairwise_map.mp hkeys)
  intro d e hde hne
  rcases nameThenKey_iff.mp hde with hname | ⟨hname, hkey⟩
  · exact .inl hname
  · exact .inr ⟨hname, lt_of_le_of_ne hkey hne⟩

/-! ## The entries of some keys -/

variable {x : SymbolIndex}

/-- The entries of keys, by name and then by key. -/
def entriesAt (x : SymbolIndex) (keys : List String) : List IndexEntry :=
  (keys.filterMap x.get?).mergeSort nameThenKey

/-- The keys of all names other than a text in which it occurs. -/
def keysHolding (x : SymbolIndex) (needle : String) : List String :=
  (x.byName.filter fun b => b.1 != needle && Text.occursIn needle b.1).flatMap (·.2)

theorem search_eq (x : SymbolIndex) (text : String) (limit : Nat) :
    x.search text limit =
      if (Text.lower (Text.trim text)).isEmpty || limit == 0 then []
      else (x.entriesAt (x.bucketKeys (Text.lower (Text.trim text))) ++
        x.entriesAt (x.keysHolding (Text.lower (Text.trim text)))).take limit := rfl

namespace Consistent

theorem mem_entriesAt (h : Consistent x) {keys : List String} {e : IndexEntry} :
    e ∈ x.entriesAt keys ↔ e ∈ x.snapshot ∧ e.key ∈ keys := by
  rw [entriesAt, List.mem_mergeSort, List.mem_filterMap, h.mem_snapshot_iff]
  constructor
  · rintro ⟨key, hkey, hget⟩
    have hself := h.keyed key e hget
    subst hself
    exact ⟨hget, hkey⟩
  · rintro ⟨hget, hkey⟩
    exact ⟨e.key, hkey, hget⟩

theorem entriesAt_precedes (h : Consistent x) {keys : List String} (hkeys : keys.Nodup) :
    (x.entriesAt keys).Pairwise IndexEntry.Precedes := by
  apply mergeSort_precedes
  apply List.pairwise_map.mpr
  apply List.pairwise_filterMap.mpr
  apply hkeys.imp
  intro k l hkl d hd e he
  rw [h.keyed k d hd, h.keyed l e he]
  exact hkl

theorem nodup_bucketKeys (h : Consistent x) (name : String) : (x.bucketKeys name).Nodup :=
  (h.names.keysAscend name).imp ne_of_lt

theorem bucketKeys_of_mem (h : Consistent x) {bucket : String × List String}
    (hb : bucket ∈ x.byName) : x.bucketKeys bucket.1 = bucket.2 := by
  rw [bucketKeys, h.names.ascending.get?_of_mem hb, Option.getD_some]

/-- No key stands in two buckets. -/
theorem bucket_unique (h : Consistent x) {name name' key : String} (hkey : key ∈ x.bucketKeys name)
    (hkey' : key ∈ x.bucketKeys name') : name = name' := by
  obtain ⟨d, hd, hname⟩ := (h.mem_bucket name key).mp hkey
  obtain ⟨e, he, hname'⟩ := (h.mem_bucket name' key).mp hkey'
  rw [hd] at he
  cases he
  exact hname.symm.trans hname'

theorem nodup_keysHolding (h : Consistent x) (needle : String) : (x.keysHolding needle).Nodup := by
  apply List.nodup_flatMap.mpr
  constructor
  · intro bucket hb
    rw [← h.bucketKeys_of_mem (List.mem_of_mem_filter hb)]
    exact h.nodup_bucketKeys _
  · refine List.Pairwise.imp_of_mem ?_ (h.names.ascending.filter _)
    intro b c hb hc hlt key hkey hkey'
    have hkey : key ∈ x.bucketKeys b.1 := by
      rwa [h.bucketKeys_of_mem (List.mem_of_mem_filter hb)]
    have hkey' : key ∈ x.bucketKeys c.1 := by
      rwa [h.bucketKeys_of_mem (List.mem_of_mem_filter hc)]
    exact ne_of_lt hlt (h.bucket_unique hkey hkey')

theorem mem_keysHolding (h : Consistent x) {needle key : String} :
    key ∈ x.keysHolding needle ↔
      ∃ name, key ∈ x.bucketKeys name ∧ name ≠ needle ∧ Text.occursIn needle name = true := by
  simp only [keysHolding, List.mem_flatMap, List.mem_filter, Bool.and_eq_true, bne_iff_ne]
  constructor
  · rintro ⟨bucket, ⟨hb, hne, hoccurs⟩, hkey⟩
    exact ⟨bucket.1, (h.bucketKeys_of_mem hb).symm ▸ hkey, hne, hoccurs⟩
  · rintro ⟨name, hkey, hne, hoccurs⟩
    cases hbucket : x.byName.get? name with
    | none =>
      rw [bucketKeys, hbucket] at hkey
      cases hkey
    | some keys =>
      rw [bucketKeys, hbucket] at hkey
      exact ⟨(name, keys), ⟨Table.mem_of_get? hbucket, hne, hoccurs⟩, hkey⟩

theorem key_mem_bucket_iff (h : Consistent x) {e : IndexEntry} (he : e ∈ x.snapshot) {name : String} :
    e.key ∈ x.bucketKeys name ↔ e.bucket = name := by
  have hget := h.mem_snapshot_iff.mp he
  rw [h.mem_bucket]
  constructor
  · rintro ⟨d, hd, hname⟩
    rw [hget] at hd
    cases hd
    exact hname
  · exact fun hname => ⟨e, hget, hname⟩

theorem key_mem_keysHolding_iff (h : Consistent x) {e : IndexEntry} (he : e ∈ x.snapshot)
    {needle : String} :
    e.key ∈ x.keysHolding needle ↔ e.bucket ≠ needle ∧ Text.FoundIn needle e.symbol.name := by
  rw [h.mem_keysHolding, Text.foundIn_iff]
  constructor
  · rintro ⟨name, hkey, hfound⟩
    have hname := (h.key_mem_bucket_iff he).mp hkey
    subst hname
    exact hfound
  · exact fun hfound => ⟨e.bucket, (h.key_mem_bucket_iff he).mpr rfl, hfound⟩

end Consistent

end SymbolIndex

/-! ## Searches -/

/-- The list has the entries of a map that satisfy a condition, by name and then by key. -/
structure EntryMap.Lists (m : EntryMap) (p : IndexEntry → Prop) (es : List IndexEntry) : Prop where
  mem_iff : ∀ e, e ∈ es ↔ e ∈ m.entries ∧ p e
  ordered : es.Pairwise IndexEntry.Precedes

theorem EntryMap.Lists.nodup {m : EntryMap} {p : IndexEntry → Prop} {es : List IndexEntry}
    (h : m.Lists p es) : es.Nodup :=
  h.ordered.imp IndexEntry.Precedes.ne

namespace SymbolIndex

variable {x : SymbolIndex} {m : EntryMap}

theorem Refines.lists_exact (h : x.Refines m) (needle : String) :
    m.Lists (fun e => Text.lower e.symbol.name = needle) (x.entriesAt (x.bucketKeys needle)) where
  mem_iff := by
    intro e
    rw [h.consistent.mem_entriesAt, ← h.snapshot_eq]
    exact and_congr_right fun he => h.consistent.key_mem_bucket_iff he
  ordered := h.consistent.entriesAt_precedes (h.consistent.nodup_bucketKeys needle)

theorem Refines.lists_holding (h : x.Refines m) (needle : String) :
    m.Lists (fun e => Text.lower e.symbol.name ≠ needle ∧ Text.FoundIn needle e.symbol.name)
      (x.entriesAt (x.keysHolding needle)) where
  mem_iff := by
    intro e
    rw [h.consistent.mem_entriesAt, ← h.snapshot_eq]
    exact and_congr_right fun he => h.consistent.key_mem_keysHolding_iff he
  ordered := h.consistent.entriesAt_precedes (h.consistent.nodup_keysHolding needle)

/-- After every run of commands a search finds nothing for a blank text or within no places. Any other search
lists the entries whose name is the text but for case, and behind them those whose name holds it, both by name
and then by key, as far as there are places. Nothing is listed twice. -/
theorem search_exact_before_partial (commands : List IndexCommand) (text : String) (limit : Nat) :
    let x := (IndexCommand.run IndexCommand.onIndex SymbolIndex.empty commands).2
    let m := (IndexCommand.run IndexCommand.onMap ∅ commands).2
    let needle := Text.lower (Text.trim text)
    ((needle = "" ∨ limit = 0) → x.search text limit = []) ∧
      (needle ≠ "" → limit ≠ 0 → ∃ exact partly,
        m.Lists (fun e => Text.lower e.symbol.name = needle) exact ∧
        m.Lists (fun e => Text.lower e.symbol.name ≠ needle ∧ Text.FoundIn needle e.symbol.name) partly ∧
        x.search text limit = (exact ++ partly).take limit) ∧
      (x.search text limit).Nodup := by
  intro x m needle
  have h : x.Refines m := (Refines.empty.run commands).2
  have hexact := h.lists_exact needle
  have hpartly := h.lists_holding needle
  have hnodup : (x.entriesAt (x.bucketKeys needle) ++ x.entriesAt (x.keysHolding needle)).Nodup := by
    refine List.Nodup.append hexact.nodup hpartly.nodup ?_
    intro e he he'
    exact ((hpartly.mem_iff e).mp he').2.1 ((hexact.mem_iff e).mp he).2
  refine ⟨?_, ?_, ?_⟩
  · rintro (hblank | hnone)
    · have hempty : (Text.lower (Text.trim text)).isEmpty = true := by simpa [needle] using hblank
      simp [search_eq, hempty]
    · simp [search_eq, hnone]
  · intro hneedle hlimit
    refine ⟨_, _, hexact, hpartly, ?_⟩
    rw [search_eq, if_neg]
    simpa [needle] using ⟨hneedle, hlimit⟩
  · rw [search_eq]
    split
    · exact List.nodup_nil
    · exact hnodup.sublist (List.take_sublist _ _)

end SymbolIndex

end SolutionAtlas
