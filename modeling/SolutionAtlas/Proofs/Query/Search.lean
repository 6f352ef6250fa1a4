-- SUMMARY: What a search for symbols lists: all that match, the best first, cut to the limit.
import Mathlib
import SolutionAtlas.Proofs.Query.Resolve
import SolutionAtlas.Proofs.StableSort
import SolutionAtlas.Proofs.Text.Occurrence
import SolutionAtlas.Query.Search

/-!
# Ranked search

A query admits entries by kind and scope, and finds them by name, signature or summary. What it finds is sorted by
scores, from the entries in the order of their keys. The weights descend from tier to tier, so hits are ranked by the
best tier in which an entry matches, and by keys within a tier. Filters take hits out of the ranking, and the limit
cuts it; neither changes the order.
-/

namespace SolutionAtlas

/-! ## Fractions -/

namespace BinaryFormat

/-- The number that a fraction stands for. -/
def value (x : Nat × Int) : ℚ :=
  x.1 * 2 ^ x.2

/-- A fraction in units of a lower power of two. -/
theorem value_eq {x : Nat × Int} {low : Int} (h : low ≤ x.2) :
    value x = ((x.1 * Nat.pow 2 (x.2 - low).toNat : Nat) : ℚ) * 2 ^ low := by
  have hexponent : x.2 = ((x.2 - low).toNat : Int) + low := by omega
  rw [value, hexponent, zpow_add₀ two_ne_zero, zpow_natCast, Nat.pow_eq, Nat.cast_mul, Nat.cast_pow, Nat.cast_ofNat,
    mul_assoc, ← hexponent]

theorem atMost_iff {a b : Nat × Int} : atMost a b = true ↔ value a ≤ value b := by
  have hunit : (0 : ℚ) < 2 ^ min a.2 b.2 := zpow_pos two_pos _
  rw [value_eq (min_le_left a.2 b.2), value_eq (min_le_right a.2 b.2), mul_le_mul_iff_left₀ hunit, Nat.cast_le,
    atMost, decide_eq_true_iff]

end BinaryFormat

/-! ## Tiers -/

namespace MatchTier

variable {needle : String} {e : IndexEntry} {t : MatchTier}

/-- Every tier, the best first. -/
def all : List MatchTier :=
  [.sameName, .nameBegins, .nameHolds, .signatureHolds, .summaryHolds]

/-- The place of a tier among all. The best one has the lowest place. -/
def rank (t : MatchTier) : Nat :=
  all.idxOf t

/-- The entry matches a lower-case text as a tier says, whether or not it matches in a better tier too. -/
def Meets (needle : String) (e : IndexEntry) : MatchTier → Prop
  | .sameName => Text.lower e.symbol.name = needle
  | .nameBegins => needle.toList <+: (Text.lower e.symbol.name).toList
  | .nameHolds => Text.FoundIn needle e.symbol.name
  | .signatureHolds => Text.FoundIn needle e.symbol.signature
  | .summaryHolds => ∃ s ∈ e.symbol.summary, Text.FoundIn needle s

instance (needle : String) (e : IndexEntry) : DecidablePred (Meets needle e)
  | .sameName => inferInstanceAs (Decidable (_ = _))
  | .nameBegins => inferInstanceAs (Decidable (_ <+: _))
  | .nameHolds => inferInstanceAs (Decidable (Text.FoundIn _ _))
  | .signatureHolds => inferInstanceAs (Decidable (Text.FoundIn _ _))
  | .summaryHolds => inferInstanceAs (Decidable (∃ s ∈ e.symbol.summary, Text.FoundIn needle s))

/-- Of the tiers in which the entry matches, this one is the best. -/
structure IsBest (needle : String) (e : IndexEntry) (t : MatchTier) : Prop where
  meets : t.Meets needle e
  least : ∀ u : MatchTier, u.Meets needle e → t.rank ≤ u.rank

theorem mem_all (t : MatchTier) : t ∈ all := by
  cases t <;> decide

theorem rank_injective : Function.Injective rank := by
  intro t u h
  exact (List.idxOf_inj (mem_all t)).mp h

theorem all_ascending : all.Pairwise fun t u => t.rank < u.rank := by
  decide

/-- The better of two tiers is the one that weighs more. -/
theorem weighsAtLeast_iff {t u : MatchTier} : t.weighsAtLeast u = true ↔ t.rank ≤ u.rank := by
  cases t <;> cases u <;> decide +kernel

theorem weighsAtLeast_trans (t u v : MatchTier) (htu : t.weighsAtLeast u = true) (huv : u.weighsAtLeast v = true) :
    t.weighsAtLeast v = true :=
  weighsAtLeast_iff.mpr ((weighsAtLeast_iff.mp htu).trans (weighsAtLeast_iff.mp huv))

theorem weighsAtLeast_total (t u : MatchTier) : (t.weighsAtLeast u || u.weighsAtLeast t) = true := by
  rw [Bool.or_eq_true, weighsAtLeast_iff, weighsAtLeast_iff]
  exact le_total _ _

theorem of?_eq_find? (needle : String) (e : IndexEntry) :
    of? needle e = all.find? fun t => t.Meets needle e := by
  have hbegins : Text.startsWith (Text.lower e.symbol.name) needle = true ↔
      Meets needle e .nameBegins := Text.startsWith_iff
  have hname : Text.occursIn needle (Text.lower e.symbol.name) = true ↔ Meets needle e .nameHolds :=
    Text.foundIn_iff.symm
  have hsignature : Text.occursIn needle (Text.lower e.symbol.signature) = true ↔
      Meets needle e .signatureHolds := Text.foundIn_iff.symm
  have hsummary : (e.symbol.summary.any fun s => Text.occursIn needle (Text.lower s)) = true ↔
      Meets needle e .summaryHolds := by
    cases hs : e.symbol.summary <;> simp [Meets, hs, Text.foundIn_iff]
  have hsame : Text.lower e.symbol.name = needle ↔ Meets needle e .sameName := .rfl
  simp only [of?, hsame, hbegins, hname, hsignature, hsummary, all, List.find?_cons, List.find?_nil]
  split_ifs <;> simp [*]

/-- The first tier to match is found first among the tiers in their order. -/
theorem isBest_of_of? (h : of? needle e = some t) : t.IsBest needle e := by
  rw [of?_eq_find?] at h
  obtain ⟨hmeets, before, after, hall, hbefore⟩ := List.find?_eq_some_iff_append.mp h
  refine ⟨of_decide_eq_true hmeets, ?_⟩
  intro u hu
  have hascending := all_ascending
  have hmem := mem_all u
  rw [hall] at hascending hmem
  rcases List.mem_append.mp hmem with hu' | hu'
  · have hfails := hbefore u hu'
    simp [hu] at hfails
  · rcases List.mem_cons.mp hu' with rfl | hu'
    · exact le_refl _
    · have hrest := (List.pairwise_append.mp hascending).2.1
      exact le_of_lt ((List.pairwise_cons.mp hrest).1 u hu')

theorem IsBest.unique {u : MatchTier} (h : t.IsBest needle e) (h' : u.IsBest needle e) : t = u :=
  rank_injective (le_antisymm (h.least u h'.meets) (h'.least t h.meets))

theorem exists_of?_iff : (∃ t, of? needle e = some t) ↔ ∃ t : MatchTier, t.Meets needle e := by
  rw [of?_eq_find?, ← Option.isSome_iff_exists, List.find?_isSome]
  simp [mem_all]

theorem of?_eq_some_iff : of? needle e = some t ↔ t.IsBest needle e := by
  constructor
  · exact isBest_of_of?
  · intro h
    obtain ⟨u, hu⟩ := exists_of?_iff.mpr ⟨t, h.meets⟩
    rw [hu, (isBest_of_of? hu).unique h]

end MatchTier

/-! ## What a query finds -/

namespace SearchQuery

variable {q : SearchQuery} {e : IndexEntry}

/-- The entry passes the filters: it has the kind that is asked for, and the scope occurs in one of its paths or
in its signature. -/
def Admits (q : SearchQuery) (e : IndexEntry) : Prop :=
  (∀ k ∈ q.kind, e.symbol.kind = k) ∧
    ∀ s ∈ q.scope, (∃ place ∈ e.symbol.locations, Text.FoundIn s place.filePath) ∨
      Text.FoundIn s e.symbol.signature

/-- The text occurs in the name, the signature or the summary, whatever the case. -/
def Finds (q : SearchQuery) (e : IndexEntry) : Prop :=
  Text.FoundIn (Text.lower q.text) e.symbol.name ∨ Text.FoundIn (Text.lower q.text) e.symbol.signature ∨
    ∃ s ∈ e.symbol.summary, Text.FoundIn (Text.lower q.text) s

instance (q : SearchQuery) : DecidablePred q.Admits := fun _ =>
  inferInstanceAs (Decidable (_ ∧ _))

instance (q : SearchQuery) : DecidablePred q.Finds := fun _ =>
  inferInstanceAs (Decidable (_ ∨ _ ∨ _))

theorem admits_iff : (passes q.kind e.symbol.kind && q.covers e) = true ↔ q.Admits e := by
  rw [Bool.and_eq_true]
  apply and_congr
  · cases hkind : q.kind <;> simp [passes]
  · cases hscope : q.scope <;> simp [covers, hscope, Text.foundIn_iff]

/-- To match in some tier is to be found. -/
theorem finds_iff : q.Finds e ↔ ∃ t : MatchTier, t.Meets (Text.lower q.text) e := by
  constructor
  · rintro (hname | hsignature | hsummary)
    · exact ⟨.nameHolds, hname⟩
    · exact ⟨.signatureHolds, hsignature⟩
    · exact ⟨.summaryHolds, hsummary⟩
  · rintro ⟨t, ht⟩
    cases t with
    | sameName =>
      have hname : Text.lower e.symbol.name = Text.lower q.text := ht
      exact .inl (by rw [Text.FoundIn, hname])
    | nameBegins => exact .inl (List.IsPrefix.isInfix ht)
    | nameHolds => exact .inl ht
    | signatureHolds => exact .inr (.inl ht)
    | summaryHolds => exact .inr (.inr ht)

theorem tier?_eq_some_iff {t : MatchTier} :
    q.tier? e = some t ↔ q.Admits e ∧ t.IsBest (Text.lower q.text) e := by
  rw [tier?, ← admits_iff, ← MatchTier.of?_eq_some_iff]
  split
  · rename_i hadmits
    simp [hadmits]
  · rename_i hadmits
    simp [hadmits]

theorem isSome_tier?_iff : (q.tier? e).isSome = true ↔ q.Admits e ∧ q.Finds e := by
  rw [Option.isSome_iff_exists, finds_iff, ← MatchTier.exists_of?_iff]
  simp only [tier?_eq_some_iff, MatchTier.of?_eq_some_iff, exists_and_left]

/-- The query for a text and a kind, where a scope and a limit may be missing. -/
def asked (wanted : String) (k : Option SymbolKind) (scope : Option String) (limit : Option Nat) :
    SearchQuery where
  text := wanted
  kind := k
  scope := (scope.bind Text.nonBlank?).map Text.lower
  limit := min (max (limit.getD 20) 1) 100

theorem read_eq {text wanted : String} {kind : Option String} {k : Option SymbolKind}
    (htext : Text.nonBlank? text = some wanted) (hkind : kindFilter kind = .ok k)
    (scope : Option String) (limit : Option Nat) :
    read text kind scope limit = .ok (asked wanted k scope limit) := by
  rw [read, htext, hkind]
  rfl

theorem limit_asked_le {wanted : String} {k : Option SymbolKind} {scope : Option String}
    {limit : Option Nat} {more : Nat} (h : limit.getD 20 ≤ more) :
    (asked wanted k scope limit).limit ≤ (asked wanted k scope (some more)).limit := by
  simp only [asked, Option.getD_some]
  omega

end SearchQuery

/-! ## The ranking -/

namespace LoadedSolution

variable {l : LoadedSolution} {q q' : SearchQuery}

/-- A better tier comes first, and the lower key within a tier. -/
def Outranks (a b : MatchTier × IndexEntry) : Prop :=
  a.1.rank < b.1.rank ∨ a.1 = b.1 ∧ a.2.key < b.2.key

/-- The list ranks what a query finds: each entry that passes the filters and matches stands in it once, with the
best of its tiers, and scores do not ascend. -/
structure Ranks (l : LoadedSolution) (q : SearchQuery) (hits : List (MatchTier × IndexEntry)) : Prop where
  found : (hits.map (·.2)).Perm (l.index.snapshot.filter fun e => q.Admits e ∧ q.Finds e)
  once : (hits.map (·.2.key)).Nodup
  best : ∀ t e, (t, e) ∈ hits → t.IsBest (Text.lower q.text) e
  ordered : hits.Pairwise Outranks
  descending : hits.Pairwise fun a b => BinaryFormat.value b.1.fraction ≤ BinaryFormat.value a.1.fraction

theorem matching_ascending (h : l.index.Consistent) :
    (l.matching q).Pairwise fun a b => a.2.key < b.2.key := by
  apply List.pairwise_filterMap.mpr
  apply h.snapshot_ascending.imp
  intro d e hde a ha b hb
  obtain ⟨t, -, rfl⟩ := Option.map_eq_some_iff.mp ha
  obtain ⟨u, -, rfl⟩ := Option.map_eq_some_iff.mp hb
  exact hde

theorem mem_matching {t : MatchTier} {e : IndexEntry} :
    (t, e) ∈ l.matching q ↔ e ∈ l.index.snapshot ∧ q.tier? e = some t := by
  rw [matching, List.mem_filterMap]
  constructor
  · rintro ⟨d, hd, htier⟩
    obtain ⟨u, hu, hpair⟩ := Option.map_eq_some_iff.mp htier
    cases hpair
    exact ⟨hd, hu⟩
  · rintro ⟨he, htier⟩
    exact ⟨e, he, by rw [htier]; rfl⟩

theorem mem_ranked {hit : MatchTier × IndexEntry} : hit ∈ l.ranked q ↔ hit ∈ l.matching q :=
  List.mem_mergeSort

theorem ranked_perm : (l.ranked q).Perm (l.matching q) :=
  List.mergeSort_perm _ _

/-- Hits come by descending scores, and those that score the same by ascending keys. -/
theorem ranked_weights (h : l.index.Consistent) :
    (l.ranked q).Pairwise fun a b =>
      a.1.weighsAtLeast b.1 = true ∧ (b.1.weighsAtLeast a.1 = true → a.2.key < b.2.key) := by
  apply pairwise_mergeSort_ties _ _ _ (matching_ascending h)
  · intro a b c
    exact MatchTier.weighsAtLeast_trans a.1 b.1 c.1
  · intro a b
    exact MatchTier.weighsAtLeast_total a.1 b.1
  · intro a
    exact lt_irrefl _

/-- By their scores the tiers come one after the other. -/
theorem ranked_ordered (h : l.index.Consistent) : (l.ranked q).Pairwise Outranks := by
  refine (ranked_weights h).imp ?_
  rintro a b ⟨hweight, htie⟩
  rcases (MatchTier.weighsAtLeast_iff.mp hweight).lt_or_eq with hbetter | hsame
  · exact .inl hbetter
  · exact .inr ⟨MatchTier.rank_injective hsame, htie (MatchTier.weighsAtLeast_iff.mpr hsame.ge)⟩

theorem Outranks.asymm {a b : MatchTier × IndexEntry} (h : Outranks a b) : ¬Outranks b a := by
  rintro (hrank | ⟨htier, hkey⟩)
  · rcases h with hrank' | ⟨htier', -⟩
    · exact lt_asymm hrank hrank'
    · exact lt_irrefl _ (htier' ▸ hrank)
  · rcases h with hrank' | ⟨-, hkey'⟩
    · exact lt_irrefl _ (htier ▸ hrank')
    · exact lt_asymm hkey hkey'

/-- Hits are listed tier by tier, those of each in the order of the index. -/
theorem ranked_eq_tiers (h : l.index.Consistent) :
    l.ranked q = MatchTier.all.flatMap fun t => (l.matching q).filter (·.1 = t) := by
  have htiers : (MatchTier.all.flatMap fun t => (l.matching q).filter (·.1 = t)).Pairwise Outranks := by
    apply List.pairwise_flatMap.mpr
    constructor
    · intro t _
      refine List.Pairwise.imp_of_mem ?_ ((matching_ascending h).filter _)
      intro a b ha hb hab
      have ha : a.1 = t := of_decide_eq_true (List.mem_filter.mp ha).2
      have hb : b.1 = t := of_decide_eq_true (List.mem_filter.mp hb).2
      exact .inr ⟨ha.trans hb.symm, hab⟩
    · apply MatchTier.all_ascending.imp
      intro t u htu a ha b hb
      have ha : a.1 = t := of_decide_eq_true (List.mem_filter.mp ha).2
      have hb : b.1 = u := of_decide_eq_true (List.mem_filter.mp hb).2
      exact .inl (by rw [ha, hb]; exact htu)
  have hmem (hit : MatchTier × IndexEntry) :
      hit ∈ l.ranked q ↔ hit ∈ MatchTier.all.flatMap fun t => (l.matching q).filter (·.1 = t) := by
    rw [mem_ranked, List.mem_flatMap]
    constructor
    · intro hhit
      exact ⟨hit.1, MatchTier.mem_all _, List.mem_filter.mpr ⟨hhit, by simp⟩⟩
    · rintro ⟨t, -, hhit⟩
      exact List.mem_of_mem_filter hhit
  have hne {a b : MatchTier × IndexEntry} (hab : Outranks a b) : a ≠ b := by
    rintro rfl
    exact hab.asymm hab
  have hperm := (List.perm_ext_iff_of_nodup ((ranked_ordered h).imp hne) (htiers.imp hne)).mpr hmem
  exact hperm.eq_of_pairwise (fun a b _ _ hab hba => absurd hba hab.asymm) (ranked_ordered h) htiers

theorem entries_matching :
    (l.matching q).map (·.2) = l.index.snapshot.filter fun e => q.Admits e ∧ q.Finds e := by
  rw [matching, List.map_filterMap]
  induction l.index.snapshot with
  | nil => rfl
  | cons e es ih =>
    rw [List.filterMap_cons, List.filter_cons, ih]
    cases htier : q.tier? e with
    | none =>
      have hmissed : ¬(q.Admits e ∧ q.Finds e) := by simp [← SearchQuery.isSome_tier?_iff, htier]
      simp [hmissed]
    | some t =>
      have hfound : q.Admits e ∧ q.Finds e := SearchQuery.isSome_tier?_iff.mp (by rw [htier]; rfl)
      simp [hfound]

theorem ranks_ranked (h : l.index.Consistent) (q : SearchQuery) : l.Ranks q (l.ranked q) where
  found := by
    rw [← entries_matching]
    exact ranked_perm.map _
  once := by
    have hkeys : ((l.matching q).map (·.2.key)).Nodup :=
      List.pairwise_map.mpr ((matching_ascending h).imp ne_of_lt)
    exact (ranked_perm.map _).nodup_iff.mpr hkeys
  best := by
    intro t e hhit
    exact (SearchQuery.tier?_eq_some_iff.mp (mem_matching.mp (mem_ranked.mp hhit)).2).2
  ordered := ranked_ordered h
  descending := (ranked_weights h).imp fun hab => BinaryFormat.atMost_iff.mp hab.1

/-- No entry stands before one whose name is the text, unless its own name is. -/
theorem Ranks.sameName_first {hits : List (MatchTier × IndexEntry)} (h : l.Ranks q hits) :
    hits.Pairwise fun a b =>
      Text.lower b.2.symbol.name = Text.lower q.text → Text.lower a.2.symbol.name = Text.lower q.text := by
  refine List.Pairwise.imp_of_mem ?_ h.ordered
  intro a b ha hb hab hsame
  have hbest : b.1.rank ≤ MatchTier.sameName.rank := (h.best b.1 b.2 hb).least .sameName hsame
  have hfirst : a.1 = .sameName := by
    rcases hab with hrank | ⟨htier, -⟩
    · exact absurd (lt_of_lt_of_le hrank hbest) (Nat.not_lt_zero _)
    · exact MatchTier.rank_injective (Nat.le_zero.mp (htier ▸ hbest))
  have hmeets := (h.best a.1 a.2 ha).meets
  rw [hfirst] at hmeets
  exact hmeets

/-- A query that admits less ranks what is left in the same order. -/
theorem ranked_of_narrower {p : IndexEntry → Bool} (h : l.index.Consistent) (htext : q.text = q'.text)
    (hadmits : ∀ e, q.Admits e ↔ q'.Admits e ∧ p e = true) :
    l.ranked q = (l.ranked q').filter fun hit => p hit.2 := by
  have htier (e : IndexEntry) : q.tier? e = (q'.tier? e).filter fun _ => p e := by
    apply Option.ext
    intro t
    rw [Option.filter_eq_some_iff, SearchQuery.tier?_eq_some_iff, SearchQuery.tier?_eq_some_iff,
      hadmits, htext, and_right_comm]
  have hmatching : l.matching q = (l.matching q').filter fun hit => p hit.2 := by
    rw [matching, matching, List.filter_filterMap]
    apply List.filterMap_congr
    intro e _
    rw [htier]
    cases q'.tier? e with
    | none => rfl
    | some t => cases hp : p e <;> simp [Option.filter, hp]
  rw [ranked, ranked, hmatching]
  apply mergeSort_filter _ _ _ (matching_ascending h)
  · intro a b c
    exact MatchTier.weighsAtLeast_trans a.1 b.1 c.1
  · intro a b
    exact MatchTier.weighsAtLeast_total a.1 b.1
  · intro a b
    exact lt_asymm

theorem search_totalMatches (l : LoadedSolution) (q : SearchQuery) :
    (l.search q).totalMatches = (l.ranked q).length := rfl

theorem search_results (l : LoadedSolution) (q : SearchQuery) :
    (l.search q).results = ((l.ranked q).take q.limit).map fun hit => SearchHit.ofEntry hit.1 hit.2 := rfl

theorem results_take (l : LoadedSolution) (q : SearchQuery) :
    (l.search q).results = ((l.ranked q).take (min (l.search q).totalMatches q.limit)).map fun hit =>
      SearchHit.ofEntry hit.1 hit.2 := by
  rw [search_results, search_totalMatches]
  congr 1
  apply List.take_eq_take_iff.mpr
  omega

/-- A higher limit only adds hits behind the others. -/
theorem results_prefix (l : LoadedSolution) (q : SearchQuery) {limit : Nat} (h : q.limit ≤ limit) :
    (l.search q).results <+: (l.search { q with limit }).results :=
  (List.take_prefix_take_left h).map _

/-- In every loaded solution a search counts all entries that pass the filters and match the text, ranks them,
and lists as many of the first as its limit allows. So no hit stands before an exact name but other exact names;
a higher limit only adds hits at the end; and a filter takes hits out of the ranking and leaves the others as
they are. -/
theorem search_ranked_and_cut {config : ContextConfig} {calls : List ContextCall}
    (hl : ((Context.new config).run calls).loaded = some l) {text wanted : String}
    {kind : Option String} {k : Option SymbolKind} (htext : Text.nonBlank? text = some wanted)
    (hkind : kindFilter kind = .ok k) (scope : Option String) (topK : Option Nat) :
    ∃ q : SearchQuery, SearchQuery.read text kind scope topK = .ok q ∧
      q.text = wanted ∧ q.kind = k ∧ q.scope = (scope.bind Text.nonBlank?).map Text.lower ∧
      (l.search q).totalMatches =
        (l.index.snapshot.filter fun e => q.Admits e ∧ q.Finds e).length ∧
      l.Ranks q (l.ranked q) ∧
      (l.search q).results =
        ((l.ranked q).take (min (l.search q).totalMatches (min (max (topK.getD 20) 1) 100))).map
          (fun hit => SearchHit.ofEntry hit.1 hit.2) ∧
      (l.ranked q).Pairwise (fun a b =>
        Text.lower b.2.symbol.name = Text.lower wanted →
          Text.lower a.2.symbol.name = Text.lower wanted) ∧
      (∀ more ≥ topK.getD 20, ∃ q', SearchQuery.read text kind scope (some more) = .ok q' ∧
        (l.search q').totalMatches = (l.search q).totalMatches ∧
        (l.search q).results <+: (l.search q').results) ∧
      (∀ k', l.ranked { q with kind := some k' } =
        (l.ranked { q with kind := none }).filter fun hit => hit.2.symbol.kind = k') ∧
      ∀ s, l.ranked { q with scope := some s } =
        (l.ranked { q with scope := none }).filter fun hit =>
          (∃ place ∈ hit.2.symbol.locations, Text.FoundIn s place.filePath) ∨
            Text.FoundIn s hit.2.symbol.signature := by
  have h : l.index.Consistent := consistent_of_loaded hl
  let q : SearchQuery := .asked wanted k scope topK
  have hranks : l.Ranks q (l.ranked q) := ranks_ranked h q
  refine ⟨q, SearchQuery.read_eq htext hkind scope topK, rfl, rfl, rfl, ?_, hranks, results_take l q,
    hranks.sameName_first, ?_, ?_, ?_⟩
  · rw [search_totalMatches, ← hranks.found.length_eq, List.length_map]
  · intro more hmore
    exact ⟨{ q with limit := (SearchQuery.asked wanted k scope (some more)).limit },
      SearchQuery.read_eq htext hkind scope (some more), rfl,
      results_prefix l q (SearchQuery.limit_asked_le hmore)⟩
  · intro k'
    refine ranked_of_narrower (p := fun e => decide (e.symbol.kind = k')) h rfl fun e => ?_
    simp [SearchQuery.Admits, and_comm]
  · intro s
    refine ranked_of_narrower (p := fun e => decide ((∃ place ∈ e.symbol.locations,
      Text.FoundIn s place.filePath) ∨ Text.FoundIn s e.symbol.signature)) h rfl fun e => ?_
    simp [SearchQuery.Admits]

namespace Example

def named (name : String) (kind : SymbolKind) (summary : Option String) : TypeSymbol :=
  typeOf (symbolOf ("T:" ++ name) name name kind summary) []

/-- Types that match `user` in several tiers, in no order. -/
def users : Solution :=
  solutionOf [⟨"global", [named "UserStore" .classType none,
    named "Profile" .classType (some "Holds USER data"), named "IUser" .interfaceType none,
    named "Order" .classType none, named "UserCache" .classType none, named "User" .classType none,
    named "AppUser" .classType none], "/s/K.cs"⟩]

end Example

/-- The cut goes through entries of one tier, and one more place lists the next of them. -/
theorem search_ranked_and_cut_ties :
    ∃ l, ((Context.new {}).run [.install Example.users none]).loaded = some l ∧
      Text.nonBlank? " User " = some "User" ∧ kindFilter (some "class") = .ok (some .classType) ∧
      ∃ q q', SearchQuery.read " User " (some "class") none (some 2) = .ok q ∧
        SearchQuery.read " User " (some "class") none (some 3) = .ok q' ∧
        (l.search q).totalMatches = 5 ∧
        (l.search q).results.map (·.symbolId) = ["T:User", "T:UserCache"] ∧
        (l.search q').results.map (·.symbolId) = ["T:User", "T:UserCache", "T:UserStore"] ∧
        (l.search q).results <+: (l.search q').results := by
  have hl : ((Context.new {}).run [.install Example.users none]).loaded =
      some (ofSolution Example.users none) := rfl
  have htext : Text.nonBlank? " User " = some "User" := by decide +kernel
  have hkind : kindFilter (some "class") = .ok (some .classType) := by decide +kernel
  obtain ⟨q, hread, -, -, -, -, -, -, -, hmore, -, -⟩ :=
    search_ranked_and_cut hl htext hkind none (some 2)
  obtain ⟨q', hread', -, hprefix⟩ := hmore 3 (by decide)
  have hq : q = .asked "User" (some .classType) none (some 2) :=
    Except.ok.inj (hread.symm.trans (SearchQuery.read_eq htext hkind none (some 2)))
  have hq' : q' = .asked "User" (some .classType) none (some 3) :=
    Except.ok.inj (hread'.symm.trans (SearchQuery.read_eq htext hkind none (some 3)))
  subst hq hq'
  have hranked (q : SearchQuery) := ranked_eq_tiers (q := q) (consistent_of_loaded hl)
  refine ⟨_, hl, htext, hkind, _, _, hread, hread', ?_, ?_, ?_, hprefix⟩
  · rw [search_totalMatches, hranked]
    decide +kernel
  · rw [search_results, hranked]
    decide +kernel
  · rw [search_results, hranked]
    decide +kernel

end LoadedSolution

end SolutionAtlas
