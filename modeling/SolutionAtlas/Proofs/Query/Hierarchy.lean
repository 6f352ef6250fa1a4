-- SUMMARY: The types below a type, as an engine and the index find them.
import Mathlib
import SolutionAtlas.Proofs.Distinct
import SolutionAtlas.Proofs.Query.Declaration

/-!
# Types below a type

An engine is called once or twice for the types below a type. They are what it finds when every call
succeeds. Otherwise nothing that it has found is used: the query is given up, or it is answered as if
there were no engine.
-/

namespace SolutionAtlas

/-! ## Calls of an engine -/

namespace Engine

/-- What an engine answers when it is asked for types. -/
abbrev Found := Except AnalysisError (List SymbolRef)

/-- The calls that a query makes, in order. -/
def answers (engine : Engine) (key : String) (isInterface : Bool) (q : DerivedQuery) : List Found :=
  (if q = .hierarchy then [engine.derivedTypes key] else []) ++
    if isInterface then [engine.implementations key] else []

/-- What calls find together, or the failure of the first that fails. -/
def collected : List Found → Found
  | [] => .ok []
  | .ok found :: rest => (collected rest).map (found ++ ·)
  | .error cause :: _ => .error cause

/-- The calls succeed and find these types. -/
def Succeed (calls : List Found) (founds : List (List SymbolRef)) : Prop :=
  calls = founds.map .ok

/-- The first call that fails does so for this cause. -/
def FailWith (calls : List Found) (cause : AnalysisError) : Prop :=
  ∃ (founds : List (List SymbolRef)) (rest : List Found), calls = founds.map .ok ++ .error cause :: rest

section Calls

variable {calls : List Found} {founds : List (List SymbolRef)} {cause : AnalysisError}

theorem Succeed.collected_eq (h : Succeed calls founds) : collected calls = .ok founds.flatten := by
  rw [h]
  clear h
  induction founds with
  | nil => rfl
  | cons found founds ih =>
    rw [List.map_cons, collected, ih]
    rfl

theorem FailWith.collected_eq (h : FailWith calls cause) : collected calls = .error cause := by
  obtain ⟨founds, rest, rfl⟩ := h
  induction founds with
  | nil => rfl
  | cons found founds ih =>
    rw [List.map_cons, List.cons_append, collected, ih]
    rfl

theorem succeed_or_fail (calls : List Found) :
    (∃ founds, Succeed calls founds) ∨ ∃ cause, FailWith calls cause := by
  induction calls with
  | nil => exact .inl ⟨[], rfl⟩
  | cons call calls ih =>
    cases call with
    | error cause => exact .inr ⟨cause, [], calls, rfl⟩
    | ok found =>
      obtain ⟨founds, rfl⟩ | ⟨cause, founds, rest, rfl⟩ := ih
      · exact .inl ⟨found :: founds, rfl⟩
      · exact .inr ⟨cause, found :: founds, rest, rfl⟩

end Calls

theorem derived_eq_collected (engine : Engine) (key : String) (isInterface : Bool) (q : DerivedQuery) :
    engine.derived key isInterface q =
      (collected (engine.answers key isInterface q)).map (firstOfEach SymbolRef.identity) := by
  cases q <;> cases isInterface <;>
    cases hderived : engine.derivedTypes key <;> cases himplementing : engine.implementations key <;>
      simp [derived, answers, collected, hderived, himplementing, bind, Except.bind, pure, Except.pure,
        Except.map]

end Engine

/-! ## Two strategies -/

/-- How a result comes about from the calls of an engine, if there is one, and from what is found
without it. `withFound` puts what the engine finds in place of what the index finds. -/
structure Combines {α : Type} (calls : Option (List Engine.Found)) (static : α)
    (source : α → HierarchySource) (withFound : List SymbolRef → α) (result : Except QueryError α) :
    Prop where
  live_iff : (∃ a, result = .ok a ∧ source a = .live) ↔
    ∃ made founds, calls = some made ∧ Engine.Succeed made founds
  live : ∀ made founds, calls = some made → Engine.Succeed made founds →
    ∃ kept, KeepsFirst SymbolRef.identity founds.flatten kept ∧ result = .ok (withFound kept)
  cancelled : ∀ made, calls = some made → Engine.FailWith made .cancelled → result = .error .cancelled
  failed : ∀ made cause, calls = some made → Engine.FailWith made cause → cause ≠ .cancelled →
    result = .ok static
  alone : calls = none → result = .ok static

theorem Combines.map {α β : Type} {calls : Option (List Engine.Found)} {static : α}
    {source : α → HierarchySource} {withFound : List SymbolRef → α} {result : Except QueryError α}
    {sourceOf : β → HierarchySource} (h : Combines calls static source withFound result) (f : α → β)
    (hsource : ∀ a, sourceOf (f a) = source a) :
    Combines calls (f static) sourceOf (fun kept => f (withFound kept)) (result.map f) where
  live_iff := by
    rw [← h.live_iff]
    cases result with
    | error cause => simp [Except.map]
    | ok a => simp [Except.map, hsource]
  live made founds hcalls hmade := by
    obtain ⟨kept, hkept, hresult⟩ := h.live made founds hcalls hmade
    exact ⟨kept, hkept, by rw [hresult]; rfl⟩
  cancelled made hcalls hmade := by
    rw [h.cancelled made hcalls hmade]
    rfl
  failed made cause hcalls hmade hcause := by
    rw [h.failed made cause hcalls hmade hcause]
    rfl
  alone hcalls := by
    rw [h.alone hcalls]
    rfl

namespace LoadedSolution

variable {l : LoadedSolution} {e : IndexEntry}

/-- The calls that a query makes of the engine of a loaded solution, if it has one. -/
def calls (l : LoadedSolution) (e : IndexEntry) (q : DerivedQuery) : Option (List Engine.Found) :=
  l.live.map fun live => live.engine.answers e.key (e.symbol.kind == .interfaceType) q

section Derived

variable {q : DerivedQuery} {made : List Engine.Found} {founds : List (List SymbolRef)}
  {cause : AnalysisError}

theorem derived_of_alone (h : l.calls e q = none) :
    l.derived e (e.symbol.kind == .interfaceType) q = .ok (l.derivedByName e, .index) := by
  rw [derived, Option.map_eq_none_iff.mp h]

theorem derived_of_succeed (h : l.calls e q = some made) (hmade : Engine.Succeed made founds) :
    l.derived e (e.symbol.kind == .interfaceType) q =
      .ok (firstOfEach SymbolRef.identity founds.flatten, .live) := by
  obtain ⟨live, hlive, rfl⟩ := Option.map_eq_some_iff.mp h
  rw [derived, hlive]
  simp only [Engine.derived_eq_collected, hmade.collected_eq, Except.map]

theorem derived_of_failWith (h : l.calls e q = some made) (hmade : Engine.FailWith made cause) :
    l.derived e (e.symbol.kind == .interfaceType) q =
      if cause = .cancelled then .error .cancelled else .ok (l.derivedByName e, .index) := by
  obtain ⟨live, hlive, rfl⟩ := Option.map_eq_some_iff.mp h
  rw [derived, hlive]
  simp only [Engine.derived_eq_collected, hmade.collected_eq, Except.map]
  cases cause <;> rfl

theorem derived_combines (l : LoadedSolution) (e : IndexEntry) (q : DerivedQuery) :
    Combines (l.calls e q) (l.derivedByName e, .index) (·.2) (fun kept => (kept, .live))
      (l.derived e (e.symbol.kind == .interfaceType) q) where
  live_iff := by
    constructor
    · rintro ⟨found, hfound, hlive⟩
      cases hcalls : l.calls e q with
      | none =>
        rw [derived_of_alone hcalls] at hfound
        cases hfound
        cases hlive
      | some made =>
        obtain ⟨founds, hmade⟩ | ⟨cause, hmade⟩ := Engine.succeed_or_fail made
        · exact ⟨made, founds, rfl, hmade⟩
        · rw [derived_of_failWith hcalls hmade] at hfound
          split at hfound
          · cases hfound
          · cases hfound
            cases hlive
    · rintro ⟨made, founds, hcalls, hmade⟩
      exact ⟨_, derived_of_succeed hcalls hmade, rfl⟩
  live made founds hcalls hmade :=
    ⟨_, keepsFirst_iff.mpr rfl, derived_of_succeed hcalls hmade⟩
  cancelled made hcalls hmade := by rw [derived_of_failWith hcalls hmade, if_pos rfl]
  failed made cause hcalls hmade hcause := by rw [derived_of_failWith hcalls hmade, if_neg hcause]
  alone hcalls := derived_of_alone hcalls

end Derived

/-! ## The same model without an engine -/

section Congr

variable {l' : LoadedSolution}

theorem resolve_congr (h : l.index = l'.index) (target : Target) (raw : String) :
    l.resolve target raw = l'.resolve target raw := by
  simp only [resolve, lookUp, h]

theorem derivedByName_congr (h : l.index = l'.index) (e : IndexEntry) :
    l.derivedByName e = l'.derivedByName e := by
  simp only [derivedByName, h]

theorem baseChainFrom_congr (h : l.solution = l'.solution) (n : Nat) (seen : List String)
    (t : TypeSymbol) : l.baseChainFrom n seen t = l'.baseChainFrom n seen t := by
  induction n generalizing seen t with
  | zero => rfl
  | succ n ih => simp only [baseChainFrom, classNamed?, h, ih]

end Congr

/-! ## Queries -/

/-- The payload of a hierarchy query, given the types below. -/
def hierarchyWith (l : LoadedSolution) (e : IndexEntry) (t : TypeSymbol)
    (below : List SymbolRef × HierarchySource) : TypeHierarchy where
  typeId := e.key
  name := t.symbol.name
  kind := t.symbol.kind
  baseTypes := t.baseTypes
  baseChain := l.baseChain t
  interfaces := t.interfaces
  derivedTypes := below.1
  source := below.2

/-- The payload of a query for implementations, given them. -/
def implementationsWith (e : IndexEntry) (below : List SymbolRef × HierarchySource) :
    InterfaceImplementations :=
  ⟨e.key, e.symbol.name, below.1, below.2⟩

section Payloads

variable {id : String} {p : Project} {n : Namespace} {t : TypeSymbol}

theorem typeHierarchy_eq (he : l.resolve .type id = .ok e) (ht : l.findType? e.key = some (p, n, t))
    (hkind : t.symbol.kind = e.symbol.kind) :
    l.typeHierarchy id =
      (l.derived e (e.symbol.kind == .interfaceType) .hierarchy).map (l.hierarchyWith e t) := by
  simp only [typeHierarchy, he, bind, Except.bind, ht, hkind]
  cases l.derived e (e.symbol.kind == .interfaceType) .hierarchy with
  | error err => rfl
  | ok below =>
    rw [← hkind]
    rfl

theorem interfaceImplementations_eq (he : l.resolve .type id = .ok e)
    (hkind : e.symbol.kind = .interfaceType) :
    l.interfaceImplementations id =
      (l.derived e (e.symbol.kind == .interfaceType) .implementations).map (implementationsWith e) := by
  have hinterface : (e.symbol.kind == .interfaceType) = true := beq_iff_eq.mpr hkind
  simp only [interfaceImplementations, he, bind, Except.bind, if_neg (not_not_intro hkind), hinterface]
  cases l.derived e true .implementations <;> rfl

end Payloads

/-- A text that stands for a type leads to a type of the model of the same kind. -/
theorem Faithful.exists_type_of_resolve (h : l.Faithful) {id : String} (he : l.resolve .type id = .ok e) :
    ∃ p n t, l.findType? e.key = some (p, n, t) ∧ t.symbol.kind = e.symbol.kind := by
  obtain ⟨_, hok, hmem, htype⟩ | ⟨_, hfails, -⟩ := resolve_cases h.consistent .type id
  · rw [he] at hok
    cases hok
    obtain ⟨p, n, t, hfound, hof⟩ := h.exists_type hmem htype
    exact ⟨p, n, t, hfound, (congrArg (·.symbol.kind) hof).symm⟩
  · rw [he] at hfails
    cases hfails

/-- In every loaded solution, what a hierarchy query and a query for implementations answer comes about
from the calls of the engine and from the answer of the same model without one. Without one the types
below an interface in its hierarchy are its implementations. -/
theorem hierarchy_live_or_static {config : ContextConfig} {calls : List ContextCall}
    (hl : ((Context.new config).run calls).loaded = some l) {id : String}
    (he : l.resolve .type id = .ok e) :
    let alone := ofSolution l.solution none
    ∃ hierarchy, alone.typeHierarchy id = .ok hierarchy ∧ hierarchy.source = .index ∧
      Combines (l.calls e .hierarchy) hierarchy (·.source)
        (fun kept => { hierarchy with derivedTypes := kept, source := .live }) (l.typeHierarchy id) ∧
      (e.symbol.kind = .interfaceType →
        ∃ implementing, alone.interfaceImplementations id = .ok implementing ∧
          implementing.source = .index ∧ implementing.implementations = hierarchy.derivedTypes ∧
          Combines (l.calls e .implementations) implementing (·.source)
            (fun kept => { implementing with implementations := kept, source := .live })
            (l.interfaceImplementations id)) := by
  intro alone
  have hloaded : l = ofSolution l.solution l.live := (Context.inOrder_run config calls).fromModel l hl
  have hfaithful : l.Faithful := by
    rw [hloaded]
    exact faithful_ofSolution _ _
  have hindex : alone.index = l.index := by
    rw [hloaded]
    rfl
  obtain ⟨p, n, t, ht, hkind⟩ := hfaithful.exists_type_of_resolve he
  have heAlone : alone.resolve .type id = .ok e := (resolve_congr hindex .type id).trans he
  have hbelow (q : DerivedQuery) :
      alone.derived e (e.symbol.kind == .interfaceType) q = .ok (l.derivedByName e, .index) := by
    rw [derived_of_alone rfl, derivedByName_congr hindex]
  have hpayload : alone.hierarchyWith e t = l.hierarchyWith e t := by
    funext below
    rw [hierarchyWith, hierarchyWith, baseChain, baseChain, baseChainFrom_congr]
    rfl
  refine ⟨l.hierarchyWith e t (l.derivedByName e, .index), ?_, rfl, ?_, ?_⟩
  · rw [typeHierarchy_eq heAlone ht hkind, hbelow, hpayload]
    rfl
  · rw [typeHierarchy_eq he ht hkind]
    exact (derived_combines l e .hierarchy).map (l.hierarchyWith e t) fun _ => rfl
  · intro hinterface
    refine ⟨implementationsWith e (l.derivedByName e, .index), ?_, rfl, rfl, ?_⟩
    · rw [interfaceImplementations_eq heAlone hinterface, hbelow]
      rfl
    · rw [interfaceImplementations_eq he hinterface]
      exact (derived_combines l e .implementations).map (implementationsWith e) fun _ => rfl

namespace Example

/-- An interface in one project, and a class that implements it in another. -/
def implemented : Solution where
  name := "S"
  path := "/s/S.sln"
  projects :=
    [project "A" { type "I" [] with symbol := symbol "I" .interfaceType },
      project "B" { type "T" [] with interfaces := ["K"] }]

/-- An engine that finds a type, and then fails. -/
def halfway : Engine :=
  { Context.Example.engine with
    derivedTypes := fun _ => .ok [.ofSymbol (symbol "U" .classType)]
    implementations := fun _ => .error (.provider "gone") }

end Example

/-- What the engine has found is not used when its second call fails. -/
theorem hierarchy_live_or_static_halfway :
    ∃ l e hierarchy,
      ((Context.new {}).run [.install Example.implemented (some Example.halfway)]).loaded = some l ∧
        l.resolve .type "I" = .ok e ∧ e.symbol.kind = .interfaceType ∧
        l.typeHierarchy "I" = .ok hierarchy ∧ hierarchy.source = .index ∧
        (ofSolution l.solution none).typeHierarchy "I" = .ok hierarchy := by
  let l := ofSolution Example.implemented (some ⟨0, Example.halfway⟩)
  have hl : ((Context.new {}).run [.install Example.implemented (some Example.halfway)]).loaded =
      some l := rfl
  have hkind : (l.resolve .type "I").toOption.map (·.symbol.kind) = some .interfaceType := by
    decide +kernel
  cases he : l.resolve .type "I" with
  | error err =>
    rw [he] at hkind
    cases hkind
  | ok e =>
    rw [he] at hkind
    have hinterface : e.symbol.kind = .interfaceType := Option.some.inj hkind
    obtain ⟨hierarchy, halone, hsource, hcombines, -⟩ := hierarchy_live_or_static hl he
    have hcalls : l.calls e .hierarchy =
        some [.ok [.ofSymbol (Example.symbol "U" .classType)], .error (.provider "gone")] := by
      rw [calls, hinterface]
      rfl
    have hfails : Engine.FailWith _ (.provider "gone") :=
      ⟨[[.ofSymbol (Example.symbol "U" .classType)]], [], rfl⟩
    have hanswer := hcombines.failed _ _ hcalls hfails (by decide)
    exact ⟨l, e, hierarchy, hl, he, hinterface, hanswer, hsource, halone⟩

end LoadedSolution

end SolutionAtlas
