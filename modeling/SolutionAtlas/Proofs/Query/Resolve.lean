-- SUMMARY: Which entry a text stands for, and when it stands for none because several bear the name.
import Mathlib
import SolutionAtlas.Proofs.Index.Refinement
import SolutionAtlas.Proofs.Query.Context
import SolutionAtlas.Query.Resolve

/-!
# Resolution

A text is looked up as a key, then as a name, then as a signature. `StandsFor` says what comes of it in terms of
the entries that the target accepts, one case for each way in which the look-up ends. That a name is never
guessed, and that a key always leads to its entry, are read off these cases.
-/

namespace SolutionAtlas.LoadedSolution

variable {l : LoadedSolution} {target : Target} {wanted : String}

/-- However a solution came to be loaded, its index was filled from nothing. -/
theorem consistent_of_loaded {config : ContextConfig} {calls : List ContextCall}
    (hl : ((Context.new config).run calls).loaded = some l) : l.index.Consistent := by
  rw [(Context.inOrder_run config calls).fromModel l hl]
  exact (SymbolIndex.Refines.empty.addAll _).1.consistent

/-- The entries that a target accepts, in ascending order of keys. -/
def acceptable (l : LoadedSolution) (target : Target) : List IndexEntry :=
  l.index.snapshot.filter target.accepts

/-- The acceptable entries whose name is a text but for case. -/
def namesakes (l : LoadedSolution) (target : Target) (wanted : String) : List IndexEntry :=
  (l.acceptable target).filter fun e => Text.lower e.symbol.name = Text.lower wanted

/-- What a text stands for: the acceptable entry with that key; or, when no acceptable entry has the key, the only
one with the name, or, when none has the name either, the first with the signature. -/
inductive StandsFor (l : LoadedSolution) (target : Target) (wanted : String) :
    Except QueryError IndexEntry → Prop
  | key {e : IndexEntry} (he : e ∈ l.acceptable target) (hkey : e.key = wanted) :
      StandsFor l target wanted (.ok e)
  | name {e : IndexEntry} (hkeys : ∀ d ∈ l.acceptable target, d.key ≠ wanted)
      (honly : l.namesakes target wanted = [e]) :
      StandsFor l target wanted (.ok e)
  | ambiguous (hkeys : ∀ d ∈ l.acceptable target, d.key ≠ wanted)
      (hseveral : 2 ≤ (l.namesakes target wanted).length) :
      StandsFor l target wanted
        (.error (.notFound target.sought wanted (.ambiguous ((l.namesakes target wanted).map (·.key)))))
  | signature {e : IndexEntry} (hkeys : ∀ d ∈ l.acceptable target, d.key ≠ wanted)
      (hnames : l.namesakes target wanted = [])
      (hfirst : (l.acceptable target).find? (·.symbol.signature == wanted) = some e) :
      StandsFor l target wanted (.ok e)
  | unknown (hkeys : ∀ d ∈ l.acceptable target, d.key ≠ wanted)
      (hnames : l.namesakes target wanted = [])
      (hsignatures : ∀ d ∈ l.acceptable target, d.symbol.signature ≠ wanted) :
      StandsFor l target wanted (.error (.notFound target.sought wanted .searchSymbols))

/-! ## The three look-ups -/

theorem mem_namesakes {e : IndexEntry} :
    e ∈ l.namesakes target wanted ↔
      e ∈ l.acceptable target ∧ Text.lower e.symbol.name = Text.lower wanted := by
  simp [namesakes]

theorem filter_get?_eq_some_iff (h : l.index.Consistent) {e : IndexEntry} :
    (l.index.get? wanted).filter target.accepts = some e ↔
      e ∈ l.acceptable target ∧ e.key = wanted := by
  rw [Option.filter_eq_some_iff, acceptable, List.mem_filter, h.mem_snapshot_iff]
  constructor
  · rintro ⟨hget, haccepts⟩
    have hself := h.keyed wanted e hget
    subst hself
    exact ⟨⟨hget, haccepts⟩, rfl⟩
  · rintro ⟨⟨hget, haccepts⟩, rfl⟩
    exact ⟨hget, haccepts⟩

theorem filter_byNameOf_eq (h : l.index.Consistent) (target : Target) (wanted : String) :
    (l.index.byNameOf wanted).filter target.accepts = l.namesakes target wanted := by
  rw [h.byNameOf_eq, namesakes, acceptable, List.filter_filter, List.filter_filter]
  apply List.filter_congr
  intro e _
  rw [Bool.and_comm]
  rfl

theorem find?_signature_eq (l : LoadedSolution) (target : Target) (wanted : String) :
    (l.index.snapshot.find? fun e => target.accepts e && e.symbol.signature == wanted) =
      (l.acceptable target).find? (·.symbol.signature == wanted) := by
  simp only [acceptable, List.find?_filter, Bool.decide_and, Bool.decide_eq_true]

/-- The look-up ends in one of the cases. -/
theorem standsFor_lookUp (h : l.index.Consistent) (target : Target) (wanted : String) :
    l.StandsFor target wanted (l.lookUp target wanted) := by
  rw [lookUp, filter_byNameOf_eq h, find?_signature_eq]
  cases hkey : (l.index.get? wanted).filter target.accepts with
  | some e =>
    obtain ⟨he, hself⟩ := (filter_get?_eq_some_iff h).mp hkey
    exact .key he hself
  | none =>
    have hkeys : ∀ d ∈ l.acceptable target, d.key ≠ wanted := by
      intro d hd hself
      have hsome := (filter_get?_eq_some_iff h).mpr ⟨hd, hself⟩
      rw [hkey] at hsome
      cases hsome
    match hnames : l.namesakes target wanted with
    | [e] => exact .name hkeys hnames
    | [] =>
      cases hfirst : (l.acceptable target).find? (·.symbol.signature == wanted) with
      | some e => exact .signature hkeys hnames hfirst
      | none =>
        refine .unknown hkeys hnames fun d hd hsignature => ?_
        exact List.find?_eq_none.mp hfirst d hd (beq_iff_eq.mpr hsignature)
    | d :: e :: rest =>
      have hseveral : 2 ≤ (l.namesakes target wanted).length := by
        rw [hnames]
        exact Nat.le_add_left 2 _
      have hambiguous := StandsFor.ambiguous hkeys hseveral
      rw [hnames] at hambiguous
      exact hambiguous

theorem standsFor_resolve (h : l.index.Consistent) (target : Target) {raw : String}
    (htext : Text.nonBlank? raw = some wanted) : l.StandsFor target wanted (l.resolve target raw) := by
  rw [resolve, htext]
  exact standsFor_lookUp h target wanted

/-! ## What follows from the cases -/

/-- The entry has the text as its key, its signature, or, but for case, its name. -/
def Bears (wanted : String) (e : IndexEntry) : Prop :=
  e.key = wanted ∨ Text.lower e.symbol.name = Text.lower wanted ∨ e.symbol.signature = wanted

namespace StandsFor

variable {e : IndexEntry} {err : QueryError}

theorem bears (h : l.StandsFor target wanted (.ok e)) :
    e ∈ l.acceptable target ∧ Bears wanted e := by
  cases h with
  | key he hkey => exact ⟨he, .inl hkey⟩
  | name hkeys honly =>
    have he : e ∈ l.namesakes target wanted := by rw [honly]; exact List.mem_singleton_self e
    obtain ⟨hacceptable, hname⟩ := mem_namesakes.mp he
    exact ⟨hacceptable, .inr (.inl hname)⟩
  | signature hkeys hnames hfirst =>
    have hsignature : e.symbol.signature = wanted := by simpa using List.find?_some hfirst
    exact ⟨List.mem_of_find?_eq_some hfirst, .inr (.inr hsignature)⟩

/-- An entry that is not found by its key has the name for itself. -/
theorem only_namesake (h : l.StandsFor target wanted (.ok e)) (hkey : e.key ≠ wanted) {d : IndexEntry}
    (hd : d ∈ l.acceptable target) (hname : Text.lower d.symbol.name = Text.lower wanted) : d = e := by
  have hmem : d ∈ l.namesakes target wanted := mem_namesakes.mpr ⟨hd, hname⟩
  cases h with
  | key he hself => exact absurd hself hkey
  | name hkeys honly =>
    rw [honly] at hmem
    exact List.mem_singleton.mp hmem
  | signature hkeys hnames hfirst =>
    rw [hnames] at hmem
    cases hmem

theorem eq_of_key (hl : l.index.Consistent) {result : Except QueryError IndexEntry}
    (h : l.StandsFor target e.key result) (he : e ∈ l.acceptable target) : result = .ok e := by
  cases h with
  | @key d hd hkey =>
    have hget := hl.mem_snapshot_iff.mp (List.mem_of_mem_filter he)
    have hget' := hl.mem_snapshot_iff.mp (List.mem_of_mem_filter hd)
    rw [hkey, hget] at hget'
    rw [Option.some.inj hget']
  | name hkeys honly => exact absurd rfl (hkeys e he)
  | ambiguous hkeys hseveral => exact absurd rfl (hkeys e he)
  | signature hkeys hnames hfirst => exact absurd rfl (hkeys e he)
  | unknown hkeys hnames hsignatures => exact absurd rfl (hkeys e he)

/-- Where an entry bears the text, only a shared name fails. -/
theorem error_ambiguous (h : l.StandsFor target wanted (.error err)) (he : e ∈ l.acceptable target)
    (hbears : Bears wanted e) :
    (∀ d ∈ l.acceptable target, d.key ≠ wanted) ∧ 2 ≤ (l.namesakes target wanted).length ∧
      err = .notFound target.sought wanted (.ambiguous ((l.namesakes target wanted).map (·.key))) := by
  cases h with
  | ambiguous hkeys hseveral => exact ⟨hkeys, hseveral, rfl⟩
  | unknown hkeys hnames hsignatures =>
    exfalso
    rcases hbears with hkey | hname | hsignature
    · exact hkeys e he hkey
    · have hmem : e ∈ l.namesakes target wanted := mem_namesakes.mpr ⟨he, hname⟩
      rw [hnames] at hmem
      cases hmem
    · exact hsignatures e he hsignature

theorem error_of_several {result : Except QueryError IndexEntry} (h : l.StandsFor target wanted result)
    (hkeys : ∀ d ∈ l.acceptable target, d.key ≠ wanted)
    (hseveral : 2 ≤ (l.namesakes target wanted).length) : ∃ err, result = .error err := by
  cases h with
  | key he hkey => exact absurd hkey (hkeys _ he)
  | name _ honly => simp [honly] at hseveral
  | ambiguous => exact ⟨_, rfl⟩
  | signature _ hnames _ => simp [hnames] at hseveral
  | unknown => exact ⟨_, rfl⟩

end StandsFor

/-- The key of an acceptable entry leads to that entry. -/
theorem resolve_of_key (h : l.index.Consistent) {e : IndexEntry} (he : e ∈ l.acceptable target)
    (hne : e.key ≠ "") (htrim : Text.trim e.key = e.key) : l.resolve target e.key = .ok e := by
  have hkey : Text.nonBlank? e.key = some e.key := by simp [Text.nonBlank?, htrim, hne]
  exact (standsFor_resolve h target hkey).eq_of_key h he

theorem namesakes_ascending (h : l.index.Consistent) (target : Target) (wanted : String) :
    ((l.namesakes target wanted).map (·.key)).Pairwise (· < ·) :=
  List.pairwise_map.mpr ((h.snapshot_ascending.filter _).filter _)

theorem text_ambiguous (keys : List String) :
    (Hint.ambiguous keys).text =
      "Name is ambiguous; use one of: " ++ ", ".intercalate (keys.take 10) ++
        (if 10 < keys.length then " (and " ++ toString (keys.length - 10) ++ " more)" else "") := by
  have htext : (Hint.ambiguous keys).text =
      "Name is ambiguous; use one of: " ++ ", ".intercalate (keys.take 10) ++
        (if keys.length - 10 > 0 then " (and " ++ toString (keys.length - 10) ++ " more)"
          else "") := rfl
  refine htext.trans (congrArg _ ?_)
  by_cases hmore : 10 < keys.length
  · rw [if_pos hmore, if_pos (Nat.sub_pos_of_lt hmore)]
  · rw [if_neg hmore, if_neg (by omega)]

/-- In every loaded solution a text stands for an acceptable entry that bears it, and for none of several that
share it as a name, unless it is the key of one. The key of an acceptable entry stands for that entry. Where some
acceptable entry bears the text, the look-up fails exactly when the text is no acceptable key and a name of
several, and the failure lists the first ten of their keys and how many there are besides. -/
theorem resolve_never_guesses {config : ContextConfig} {calls : List ContextCall}
    (hl : ((Context.new config).run calls).loaded = some l) (target : Target) {raw wanted : String}
    (htext : Text.nonBlank? raw = some wanted) :
    (∀ e, l.resolve target raw = .ok e →
      e ∈ l.acceptable target ∧ Bears wanted e ∧
        (e.key ≠ wanted →
          ∀ d ∈ l.acceptable target, Text.lower d.symbol.name = Text.lower wanted → d = e)) ∧
    (∀ e ∈ l.acceptable target, e.key ≠ "" → Text.trim e.key = e.key →
      l.resolve target e.key = .ok e) ∧
    ((∃ e ∈ l.acceptable target, Bears wanted e) →
      ((∃ err, l.resolve target raw = .error err) ↔
        (∀ e ∈ l.acceptable target, e.key ≠ wanted) ∧ 2 ≤ (l.namesakes target wanted).length) ∧
      ∀ err, l.resolve target raw = .error err →
        let keys := (l.namesakes target wanted).map (·.key)
        keys.Pairwise (· < ·) ∧ err = .notFound target.sought wanted (.ambiguous keys) ∧
          err.hint? = some ("Name is ambiguous; use one of: " ++ ", ".intercalate (keys.take 10) ++
            (if 10 < keys.length then " (and " ++ toString (keys.length - 10) ++ " more)" else ""))) := by
  have h : l.index.Consistent := consistent_of_loaded hl
  have hresult := standsFor_resolve h target htext
  refine ⟨?_, ?_, ?_⟩
  · intro e hok
    rw [hok] at hresult
    obtain ⟨he, hbears⟩ := hresult.bears
    exact ⟨he, hbears, fun hkey d hd hname => hresult.only_namesake hkey hd hname⟩
  · intro e he hne htrim
    exact resolve_of_key h he hne htrim
  · rintro ⟨e, he, hbears⟩
    refine ⟨⟨?_, ?_⟩, ?_⟩
    · rintro ⟨err, herr⟩
      rw [herr] at hresult
      obtain ⟨hkeys, hseveral, -⟩ := hresult.error_ambiguous he hbears
      exact ⟨hkeys, hseveral⟩
    · rintro ⟨hkeys, hseveral⟩
      exact hresult.error_of_several hkeys hseveral
    · intro err herr
      rw [herr] at hresult
      obtain ⟨-, -, rfl⟩ := hresult.error_ambiguous he hbears
      exact ⟨namesakes_ascending h target wanted, rfl, congrArg some (text_ambiguous _)⟩

namespace Example

def symbolOf (key name signature : String) (kind : SymbolKind) (summary : Option String) : Symbol :=
  ⟨some key, name, signature, kind, .publicAccess, [], summary, [⟨"/s/K.cs", 1, 1, 1, 9⟩]⟩

def typeOf (symbol : Symbol) (members : List Member) : TypeSymbol :=
  ⟨symbol, members, [], [], false, false, false, false, "/s/K.cs", "K.cs", 1⟩

/-- A solution of one project. -/
def solutionOf (namespaces : List Namespace) : Solution where
  name := "S"
  path := "/s/S.sln"
  projects := [{ name := "A", projectFilePath := "/s/A.csproj", namespaces }]

/-- A class of the name `K` in a namespace, with its constructor. -/
def classWithConstructor (space : String) : Namespace where
  name := space
  types := [typeOf (symbolOf ("T:" ++ space ++ ".K") "K" (space ++ ".K") .classType none)
    [⟨symbolOf ("M:" ++ space ++ ".K.#ctor") "K" (space ++ ".K.K()") .constructor none,
      false, false, false, false, false, none, [], none, none⟩]]
  filePath := "/s/K.cs"

/-- Six classes of one name. -/
def crowd : Solution :=
  solutionOf (["A", "B", "C", "D", "E", "F"].map classWithConstructor)

end Example

/-- Six classes and their constructors share a name. Of the twelve keys two are not listed; each that is listed
leads to its entry. -/
theorem resolve_never_guesses_crowd :
    ∃ l, ((Context.new {}).run [.install Example.crowd none]).loaded = some l ∧
      Text.nonBlank? " k " = some "k" ∧
      (∃ err, l.resolve .any " k " = .error err ∧
        err.hint? = some ("Name is ambiguous; use one of: M:A.K.#ctor, M:B.K.#ctor, M:C.K.#ctor, " ++
          "M:D.K.#ctor, M:E.K.#ctor, M:F.K.#ctor, T:A.K, T:B.K, T:C.K, T:D.K (and 2 more)")) ∧
      ∃ e ∈ l.acceptable .type, e.key = "T:D.K" ∧ l.resolve .type "T:D.K" = .ok e := by
  have hl : ((Context.new {}).run [.install Example.crowd none]).loaded =
      some (ofSolution Example.crowd none) := rfl
  have htext : Text.nonBlank? " k " = some "k" := by decide +kernel
  refine ⟨_, hl, htext, ?_, ?_⟩
  · obtain ⟨-, -, hfails⟩ := resolve_never_guesses hl .any htext
    have hkeys : ((ofSolution Example.crowd none).namesakes .any "k").map (·.key) =
        ["M:A.K.#ctor", "M:B.K.#ctor", "M:C.K.#ctor", "M:D.K.#ctor", "M:E.K.#ctor", "M:F.K.#ctor",
          "T:A.K", "T:B.K", "T:C.K", "T:D.K", "T:E.K", "T:F.K"] := by
      decide +kernel
    have hcount : ((ofSolution Example.crowd none).namesakes .any "k").length = 12 := by
      rw [← List.length_map, hkeys]
      rfl
    obtain ⟨e, he⟩ : ∃ e, e ∈ (ofSolution Example.crowd none).namesakes .any "k" :=
      List.exists_mem_of_length_pos (by rw [hcount]; decide)
    obtain ⟨hacceptable, hname⟩ := mem_namesakes.mp he
    obtain ⟨hiff, herror⟩ := hfails ⟨e, hacceptable, .inr (.inl hname)⟩
    have hnone : ∀ e ∈ (ofSolution Example.crowd none).acceptable .any, e.key ≠ "k" := by
      decide +kernel
    obtain ⟨err, herr⟩ := hiff.mpr ⟨hnone, by rw [hcount]; decide⟩
    obtain ⟨-, -, hhint⟩ := herror err herr
    rw [hkeys] at hhint
    exact ⟨err, herr, hhint.trans (by decide +kernel)⟩
  · obtain ⟨-, hself, -⟩ := resolve_never_guesses hl .type htext
    have hsome : ((ofSolution Example.crowd none).acceptable .type).any (·.key == "T:D.K") = true := by
      decide +kernel
    obtain ⟨e, he, hkey⟩ := List.any_eq_true.mp hsome
    have hkey : e.key = "T:D.K" := beq_iff_eq.mp hkey
    have htrim : Text.trim "T:D.K" = "T:D.K" := by decide +kernel
    have hfound := hself e he (by simp [hkey]) (by rw [hkey, htrim])
    rw [hkey] at hfound
    exact ⟨e, he, hkey, hfound⟩

end SolutionAtlas.LoadedSolution
