-- SUMMARY: What calls make of a context: a load replaces all or nothing, and engines are released once.
import Mathlib
import SolutionAtlas.Query.Context

/-!
# Contexts over runs of calls

A load ends in one of three ways: before an engine is asked for, after the caller has given up while
one was opened, or with a new loaded solution. All that is said here of loads rests on that. Engines
are numbered in the order in which a context is given them, and `InOrder` says where each of them is.
-/

namespace SolutionAtlas

/-- A call that may change a context. -/
inductive ContextCall where
  | load (w : Workspace) (now : Nat) (call : Call) (path : String)
  /-- Puts a model in place that was made elsewhere. -/
  | install (s : Solution) (engine : Option Engine)
  | clear

/-- The engine that a provider opens for a path. -/
def Provider.engineFor? (p : Provider) (path : String) : Option Engine :=
  (p.openEngine path).result.toOption.join

namespace Context

/-- A context that has loaded nothing yet. -/
def new (config : ContextConfig) : Context :=
  { config }

def step (c : Context) : ContextCall → Context
  | .load w now call path => (c.load w now call path).context
  | .install s engine => (c.install s engine).1
  | .clear => c.clear

def run (c : Context) (calls : List ContextCall) : Context :=
  calls.foldl step c

/-- The engine of the loaded solution. -/
def live? (c : Context) : Option LiveEngine :=
  c.loaded.bind (·.live)

/-! ## How a load ends -/

/-- The path for which a load asks for an engine, and the model it has made, when it comes so far. -/
def modelFor? (c : Context) (w : Workspace) (now : Nat) (call : Call) (path : String) :
    Option (String × Solution) :=
  if call.cancelled then none
  else do
    let full ← (w.disk.canonical path).toOption
    let a ← (c.analyzerFor w full).toOption
    let s ← (c.modelOf w now call full a).1.result.toOption
    return (full, s)

/-- The ends of a load, by the model it has made. Whatever the end, the analyzer may be another. -/
inductive LoadEnd (c : Context) (p : Provider) :
    Option (String × Solution) → Except QueryError LoadedSolution → Context → Prop where
  | early (slot : Option (String × Analyzer)) (e : QueryError) :
    LoadEnd c p none (.error e) { c with analyzer := slot }
  | whileOpening (slot : Option (String × Analyzer)) (full : String) (s : Solution) :
    LoadEnd c p (some (full, s)) (.error .cancelled)
      ({ c with analyzer := slot }.discard (p.engineFor? full))
  | loaded (slot : Option (String × Analyzer)) (full : String) (s : Solution) :
    LoadEnd c p (some (full, s)) (.ok ({ c with analyzer := slot }.install s (p.engineFor? full)).2)
      ({ c with analyzer := slot }.install s (p.engineFor? full)).1

theorem openAndInstall_cases (c : Context) (w : Workspace) (call : Call) (path : String) (s : Solution) :
    let engine := w.provider.engineFor? path
    let o := c.openAndInstall w call path s
    (o.1 = .error .cancelled ∧ o.2.1 = c.discard engine) ∨
      (o.1 = .ok (c.install s engine).2 ∧ o.2.1 = (c.install s engine).1) := by
  intro engine o
  simp only [o, openAndInstall]
  split
  · rename_i hgivesUp
    have hnone : engine = none := by simp [engine, Provider.engineFor?, hgivesUp, Except.toOption]
    simp [hnone, discard]
  · by_cases hcancelled : (call.cancelled || (w.provider.openEngine path).givesUp) = true
    · simp [hcancelled, engine, Provider.engineFor?]
    · simp [hcancelled, engine, Provider.engineFor?]

theorem load_end (c : Context) (w : Workspace) (now : Nat) (call : Call) (path : String) :
    LoadEnd c w.provider (c.modelFor? w now call path) (c.load w now call path).result
      (c.load w now call path).context := by
  unfold load modelFor?
  by_cases hcall : call.cancelled = true
  · simp only [hcall, if_true]
    exact .early c.analyzer .cancelled
  rw [if_neg hcall, if_neg hcall]
  cases w.disk.canonical path with
  | error e => exact .early c.analyzer _
  | ok full =>
    simp only [Except.toOption, Option.bind_eq_bind, Option.bind_some]
    cases c.analyzerFor w full with
    | error e => exact .early c.analyzer _
    | ok a =>
      simp only [Option.bind_some]
      cases hs : (c.modelOf w now call full a).1.result with
      | error e => exact .early _ _
      | ok s =>
        simp only [Option.bind_some, Option.pure_def]
        obtain ⟨hresult, hcontext⟩ | ⟨hresult, hcontext⟩ := openAndInstall_cases
          { c with analyzer := some (full, (c.modelOf w now call full a).1.analyzer) }
          { w with disk := (c.modelOf w now call full a).2 } (c.modelOf w now call full a).1.call full s
        · rw [hresult, hcontext]
          exact .whileOpening _ full s
        · rw [hresult, hcontext]
          exact .loaded _ full s

/-! ## What stays in order -/

/-- The engine that is opened for a load. -/
def opens? (c : Context) (w : Workspace) (now : Nat) (call : Call) (path : String) : Option Engine :=
  (c.modelFor? w now call path).bind fun made => w.provider.engineFor? made.1

/-- The engine that a call hands to the context, opened by the provider or given by the caller. -/
def handed? (c : Context) : ContextCall → Option Engine
  | .load w now call path => c.opens? w now call path
  | .install _ engine => engine
  | .clear => none

/-- The engines that the calls of a run hand to the context, in order. -/
def enginesOf (c : Context) : List ContextCall → List Engine
  | [] => []
  | call :: calls => (c.handed? call).toList ++ (c.step call).enginesOf calls

/-- What is loaded is made from its model. The ids of the engines that the context was given are their
places in a list: that of the loaded solution is not released, each other one is released once, and
nothing else is. -/
structure InOrder (c : Context) (engines : List Engine) : Prop where
  fromModel : ∀ l ∈ c.loaded, l = .ofSolution l.solution l.live
  opened : c.opened = engines.length
  live : ∀ live ∈ c.live?, engines[live.id]? = some live.engine
  released : ∀ id, c.released.count id =
    if id < engines.length ∧ id ∉ liveIds c.loaded then 1 else 0

theorem mem_liveIds {c : Context} {id : Nat} :
    id ∈ liveIds c.loaded ↔ ∃ live ∈ c.live?, live.id = id := by
  unfold liveIds live?
  simp only [Option.mem_toList, Option.map_eq_some_iff, Option.mem_def]

theorem nodup_liveIds (loaded : Option LoadedSolution) : (liveIds loaded).Nodup := by
  unfold liveIds
  cases loaded.bind (·.live) <;> simp

@[simp] theorem liveIds_none : liveIds none = [] := rfl

@[simp] theorem liveIds_ofSolution (s : Solution) (live : Option LiveEngine) :
    liveIds (some (.ofSolution s live)) = (live.map (·.id)).toList := rfl

namespace InOrder

variable {c : Context} {engines : List Engine}

theorem new (config : ContextConfig) : (Context.new config).InOrder [] where
  fromModel := by
    intro l hl
    cases hl
  opened := rfl
  live := by
    intro live hlive
    cases hlive
  released := by simp [Context.new]

theorem lt_of_live (h : c.InOrder engines) {id : Nat} (hid : id ∈ liveIds c.loaded) :
    id < engines.length := by
  obtain ⟨live, hlive, rfl⟩ := mem_liveIds.mp hid
  exact (List.getElem?_eq_some_iff.mp (h.live live hlive)).1

/-- Once the engine of the loaded solution is released as well, each is released once. -/
theorem count_release (h : c.InOrder engines) (id : Nat) :
    (c.released ++ liveIds c.loaded).count id = if id < engines.length then 1 else 0 := by
  rw [List.count_append, h.released]
  by_cases hid : id ∈ liveIds c.loaded
  · simp [hid, h.lt_of_live hid, List.count_eq_one_of_mem (nodup_liveIds c.loaded)]
  · simp [hid, List.count_eq_zero_of_not_mem]

theorem with_analyzer (h : c.InOrder engines) (slot : Option (String × Analyzer)) :
    { c with analyzer := slot }.InOrder engines :=
  ⟨h.fromModel, h.opened, h.live, h.released⟩

theorem clear (h : c.InOrder engines) : c.clear.InOrder engines where
  fromModel := by
    intro l hl
    cases hl
  opened := h.opened
  live := by
    intro live hlive
    cases hlive
  released := by
    intro id
    simp only [Context.clear, liveIds_none, List.not_mem_nil, not_false_eq_true, and_true]
    exact h.count_release id

/-- An engine that is taken and released at once. -/
theorem discard (h : c.InOrder engines) (engine : Option Engine) :
    (c.discard engine).InOrder (engines ++ engine.toList) := by
  cases engine with
  | none => simpa [Context.discard] using h
  | some e =>
    refine ⟨h.fromModel, by simp [Context.discard, h.opened], ?_, ?_⟩
    · intro live hlive
      have hold : engines[live.id]? = some live.engine := h.live live hlive
      rw [List.getElem?_append_left (h.lt_of_live (mem_liveIds.mpr ⟨live, hlive, rfl⟩)), hold]
    · intro id
      have hfresh : engines.length ∉ liveIds c.loaded := fun hlive =>
        absurd (h.lt_of_live hlive) (lt_irrefl _)
      simp only [Context.discard, Option.isSome_some, if_true, List.count_append, h.released, h.opened]
      by_cases hid : id = engines.length
      · simp [hid, hfresh]
      · have hlt : id < engines.length + 1 ↔ id < engines.length := by omega
        simp [hlt, Ne.symm hid]

/-- An engine that comes with a new loaded solution, in place of the one of the old. -/
theorem install (h : c.InOrder engines) (s : Solution) (engine : Option Engine) :
    (c.install s engine).1.InOrder (engines ++ engine.toList) := by
  have hmodel : ∀ l ∈ (c.install s engine).1.loaded, l = .ofSolution l.solution l.live := by
    intro l hl
    obtain rfl := Option.some.inj hl
    rfl
  cases engine with
  | none =>
    refine ⟨hmodel, by simp [Context.install, h.opened], ?_, ?_⟩
    · intro live hlive
      cases hlive
    · intro id
      simp [Context.install, -List.count_append, h.count_release]
  | some e =>
    refine ⟨hmodel, by simp [Context.install, h.opened], ?_, ?_⟩
    · intro live hlive
      obtain rfl : ⟨c.opened, e⟩ = live := Option.some.inj hlive
      simp [h.opened]
    · intro id
      have hlt : id ≤ engines.length ∧ id ≠ engines.length ↔ id < engines.length := by omega
      simp [Context.install, -List.count_append, h.count_release, h.opened, ← hlt]

theorem load (h : c.InOrder engines) (w : Workspace) (now : Nat) (call : Call) (path : String) :
    (c.load w now call path).context.InOrder
      (engines ++ (c.opens? w now call path).toList) := by
  have hend := c.load_end w now call path
  unfold opens?
  generalize c.modelFor? w now call path = made at hend ⊢
  generalize (c.load w now call path).context = after at hend ⊢
  generalize (c.load w now call path).result = result at hend
  cases hend with
  | early slot e => simpa using h.with_analyzer slot
  | whileOpening slot full s => exact (h.with_analyzer slot).discard _
  | loaded slot full s => exact (h.with_analyzer slot).install s _

theorem step (h : c.InOrder engines) (call : ContextCall) :
    (c.step call).InOrder (engines ++ (c.handed? call).toList) := by
  cases call with
  | load w now call path => exact h.load w now call path
  | install s engine => exact h.install s engine
  | clear =>
    rw [handed?, Option.toList_none, List.append_nil]
    exact h.clear

theorem run (h : c.InOrder engines) (calls : List ContextCall) :
    (c.run calls).InOrder (engines ++ c.enginesOf calls) := by
  induction calls generalizing c engines with
  | nil => simpa [enginesOf, Context.run] using h
  | cons call calls ih =>
    have hnext := ih (h.step call)
    rw [List.append_assoc] at hnext
    exact hnext

end InOrder

theorem inOrder_run (config : ContextConfig) (calls : List ContextCall) :
    ((new config).run calls).InOrder ((new config).enginesOf calls) := by
  simpa using (InOrder.new config).run calls

/-! ## A run of calls -/

namespace Example

/-- An engine that knows nothing. -/
def engine : Engine where
  resolve _ := .ok none
  derivedTypes _ := .ok []
  implementations _ := .ok []
  callers _ := .ok []
  references _ := .ok []
  operations _ := .ok []

/-- A solution file without projects, and a provider that opens an engine, during which the caller may
give up. -/
def workspace (givesUp : Bool) : Workspace where
  provider := { Provider.workspace with openEngine := fun _ => ⟨.ok (some engine), givesUp⟩ }
  disk := { files := [(["S.sln"], ⟨.empty, 1⟩)] }

def config : ContextConfig where
  analyzer := some { excludePatterns := [] }

/-- A model with an engine is put in place, and a load is given up while its engine is opened. -/
def calls : List ContextCall :=
  [.install ⟨"Old", "/old", [], {}, {}⟩ (some engine), .load (workspace true) 0 {} "/S.sln"]

end Example

/-- After any calls, each engine that the context was ever given is that of the loaded solution and
has not been released, or is not and has been released once. No other engine is loaded or released. -/
theorem engines_released_once (config : ContextConfig) (calls : List ContextCall) :
    let c := (new config).run calls
    let engines := (new config).enginesOf calls
    (∀ id (h : id < engines.length),
      (c.live? = some ⟨id, engines[id]⟩ ∧ c.released.count id = 0) ∨
        ((∀ live ∈ c.live?, live.id ≠ id) ∧ c.released.count id = 1)) ∧
      (∀ live ∈ c.live?, live.id < engines.length) ∧ ∀ id ∈ c.released, id < engines.length := by
  intro c engines
  have h : c.InOrder engines := inOrder_run config calls
  refine ⟨?_, ?_, ?_⟩
  · intro id hid
    by_cases hlive : id ∈ liveIds c.loaded
    · obtain ⟨⟨_, engine⟩, hfound, rfl⟩ := mem_liveIds.mp hlive
      left
      refine ⟨?_, by simp [h.released, hlive]⟩
      have hengine := h.live _ hfound
      rw [List.getElem?_eq_getElem hid] at hengine
      rw [Option.mem_def.mp hfound, Option.some.inj hengine]
    · right
      refine ⟨?_, by simp [h.released, hlive, hid]⟩
      intro live hfound heq
      exact hlive (mem_liveIds.mpr ⟨live, hfound, heq⟩)
  · intro live hlive
    exact h.lt_of_live (mem_liveIds.mpr ⟨live, hlive, rfl⟩)
  · intro id hid
    by_contra hge
    have hzero : c.released.count id = 0 := by simp [h.released, hge]
    exact absurd hid (List.count_eq_zero.mp hzero)

/-- A load that succeeds releases the engine before it; that of the load given up is released too. -/
theorem engines_released_once_reload :
    let calls := Example.calls ++ [.load (Example.workspace false) 0 {} "/S.sln"]
    let c := (new Example.config).run calls
    ((new Example.config).enginesOf calls).length = 3 ∧ c.live?.map (·.id) = some 2 ∧
      c.released.count 0 = 1 ∧ c.released.count 1 = 1 ∧ c.released.count 2 = 0 := by
  intro calls c
  have hlength : ((new Example.config).enginesOf calls).length = 3 := by decide +kernel
  have hlive : c.live?.map (·.id) = some 2 := by decide +kernel
  obtain ⟨live, hfound, hid⟩ := Option.map_eq_some_iff.mp hlive
  obtain ⟨h, -, -⟩ := engines_released_once Example.config calls
  have hother (id : Nat) (hlt : id < 3) (hne : id ≠ 2) : c.released.count id = 1 := by
    obtain ⟨hsame, -⟩ | ⟨-, hcount⟩ := h id (hlength ▸ hlt)
    · rw [hsame] at hlive
      exact absurd (Option.some.inj hlive) hne
    · exact hcount
  refine ⟨hlength, hlive, hother 0 (by decide) (by decide), hother 1 (by decide) (by decide), ?_⟩
  obtain ⟨-, hcount⟩ | ⟨hnot, -⟩ := h 2 (hlength ▸ by decide)
  · exact hcount
  · exact absurd hid (hnot live hfound)

/-! ## Loads that fail and loads that succeed -/

/-- After any calls, a load that fails keeps the loaded solution and does not release its engine. A
load that succeeds leaves the solution of the model it has made, with the engine opened for it. -/
theorem load_replaces_or_keeps (config : ContextConfig) (calls : List ContextCall) (w : Workspace)
    (now : Nat) (call : Call) (path : String) :
    let c := (new config).run calls
    let o := c.load w now call path
    (∀ e, o.result = .error e →
      o.context.loaded = c.loaded ∧ ∀ live ∈ c.live?, live.id ∉ o.context.released) ∧
    ∀ l, o.result = .ok l →
      o.context.loaded = some l ∧ ∃ full s, c.modelFor? w now call path = some (full, s) ∧
        l = .ofSolution s ((w.provider.engineFor? full).map fun e => ⟨c.opened, e⟩) := by
  intro c o
  have hkept (hloaded : o.context.loaded = c.loaded) :
      ∀ live ∈ c.live?, live.id ∉ o.context.released := by
    have h : o.context.InOrder _ := (inOrder_run config calls).load w now call path
    intro live hlive
    have hid : live.id ∈ liveIds o.context.loaded := by
      rw [hloaded]
      exact mem_liveIds.mpr ⟨live, hlive, rfl⟩
    apply List.count_eq_zero.mp
    simp [h.released, hid]
  have hend : LoadEnd c w.provider _ o.result o.context := c.load_end w now call path
  generalize o.context = after at hend hkept ⊢
  generalize o.result = result at hend ⊢
  generalize c.modelFor? w now call path = made at hend ⊢
  cases hend with
  | early slot e =>
    refine ⟨fun _ _ => ⟨rfl, hkept rfl⟩, ?_⟩
    intro l hl
    cases hl
  | whileOpening slot full s =>
    have hloaded : ({ c with analyzer := slot }.discard (w.provider.engineFor? full)).loaded =
        c.loaded := by
      unfold discard
      split <;> rfl
    refine ⟨fun _ _ => ⟨hloaded, hkept hloaded⟩, ?_⟩
    intro l hl
    cases hl
  | loaded slot full s =>
    constructor
    · intro e he
      cases he
    · intro l hl
      cases hl
      exact ⟨rfl, full, s, rfl, rfl⟩

/-- The load is given up while its engine is opened. -/
theorem load_replaces_or_keeps_givenUp :
    let c := (new Example.config).run Example.calls
    let o := c.load (Example.workspace true) 0 {} "/S.sln"
    (∃ e, o.result = .error e) ∧ c.live?.map (·.id) = some 0 ∧ o.context.released = [1, 2] ∧
      o.context.loaded = c.loaded ∧ ∀ live ∈ c.live?, live.id ∉ o.context.released := by
  intro c o
  have hfails : o.result.toBool = false := by decide +kernel
  obtain ⟨e, he⟩ : ∃ e, o.result = .error e := by
    cases hresult : o.result with
    | error e => exact ⟨e, rfl⟩
    | ok l =>
      rw [hresult] at hfails
      cases hfails
  obtain ⟨h, -⟩ :=
    load_replaces_or_keeps Example.config Example.calls (Example.workspace true) 0 {} "/S.sln"
  exact ⟨⟨e, he⟩, by decide +kernel, by decide +kernel, h e he⟩

end Context

end SolutionAtlas
