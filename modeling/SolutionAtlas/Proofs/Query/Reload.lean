-- SUMMARY: A load gives what a new context loads, under the settings in force.
import Mathlib
import SolutionAtlas.Proofs.Analysis.Cache
import SolutionAtlas.Proofs.Analysis.SolutionFromScratch
import SolutionAtlas.Proofs.Query.Context

/-!
# Loading again

A context keeps the analyzer of the path it has loaded last, so that the next load of the path finds
its documents analyzed. What the analyzer remembers does not show: a load gives what a new context
loads, as long as both have the same settings. But the analyzer keeps its settings as well, and the
settings file of the path is not read again before another path is loaded or the context is cleared.
`ContextSession.settled` records when it was read.
-/

namespace SolutionAtlas

/-! ## How a load goes on -/

namespace Context

variable {c : Context} {w : Workspace} {now : Nat} {call : Call} {path : String}

/-- The full path that a load is for and the analyzer it is made with, when it comes so far. -/
def analyzerAt? (c : Context) (w : Workspace) (call : Call) (path : String) : Option (String × Analyzer) :=
  if call.cancelled then none
  else
    match w.disk.canonical path with
    | .error _ => none
    | .ok full =>
      match c.analyzerFor w full with
      | .error _ => none
      | .ok a => some (full, a)

theorem of_analyzerAt? {full : String} {a : Analyzer} (h : c.analyzerAt? w call path = some (full, a)) :
    call.cancelled = false ∧ w.disk.canonical path = .ok full ∧ c.analyzerFor w full = .ok a := by
  unfold analyzerAt? at h
  split at h
  · cases h
  · rename_i hcall
    split at h
    · cases h
    · rename_i known hknown
      split at h
      · cases h
      · rename_i b hb
        cases h
        exact ⟨Bool.eq_false_iff.mpr hcall, hknown, hb⟩

/-- The analyzer for a path is the one at hand, or a new one when there is none for the path. -/
theorem analyzerFor_ok {full : String} {a : Analyzer} (h : c.analyzerFor w full = .ok a) :
    c.analyzer = some (full, a) ∨ (∀ b, c.analyzer ≠ some (full, b)) ∧
      ∃ settings, c.settingsFor w full = .ok settings ∧ Analyzer.ofConfig settings = .ok a := by
  have hnew (h : (c.settingsFor w full).bind Analyzer.ofConfig = .ok a) :
      ∃ settings, c.settingsFor w full = .ok settings ∧ Analyzer.ofConfig settings = .ok a := by
    cases hsettings : c.settingsFor w full with
    | error e =>
      rw [hsettings] at h
      cases h
    | ok settings =>
      rw [hsettings] at h
      exact ⟨settings, rfl, h⟩
  unfold analyzerFor at h
  dsimp only at h
  split at h
  · rename_i known b hslot
    split at h
    · rename_i hknown
      cases h
      exact .inl (hknown ▸ hslot)
    · rename_i hother
      refine .inr ⟨fun b' hb' => hother ?_, hnew h⟩
      rw [hslot] at hb'
      cases hb'
      rfl
  · rename_i hslot
    refine .inr ⟨fun b' hb' => ?_, hnew h⟩
    rw [hslot] at hb'
    cases hb'

/-- A load that does not come to an analyzer changes nothing. -/
theorem load_of_none (h : c.analyzerAt? w call path = none) (now : Nat) :
    ∃ e, c.load w now call path = ⟨.error e, c, w.disk, call⟩ := by
  unfold analyzerAt? at h
  unfold load
  split
  · exact ⟨_, rfl⟩
  · rename_i hcall
    rw [if_neg hcall] at h
    split
    · exact ⟨_, rfl⟩
    · rename_i full hfull
      split
      · exact ⟨_, rfl⟩
      · rename_i a ha
        simp only [hfull, ha] at h
        cases h

/-- An engine that is opened for a model changes neither settings nor analyzer. -/
theorem openAndInstall_keeps (c : Context) (w : Workspace) (call : Call) (path : String) (s : Solution) :
    let o := c.openAndInstall w call path s
    o.2.1.analyzer = c.analyzer ∧ o.2.1.config = c.config ∧
      ∀ l, o.1 = .ok l → l = (c.install s (w.provider.engineFor? path)).2 := by
  intro o
  obtain ⟨hresult, hcontext⟩ | ⟨hresult, hcontext⟩ := c.openAndInstall_cases w call path s
  · rw [hresult, hcontext]
    unfold discard
    refine ⟨?_, ?_, fun l hl => ?_⟩
    · split <;> rfl
    · split <;> rfl
    · cases hl
  · rw [hresult, hcontext]
    exact ⟨rfl, rfl, fun l hl => (Except.ok.inj hl).symm⟩

/-- A load that comes to an analyzer keeps it for the path, as its analysis leaves it. -/
theorem load_of_some {full : String} {a : Analyzer} (h : c.analyzerAt? w call path = some (full, a))
    (now : Nat) :
    let o := c.modelOf w now call full a
    let after := c.load w now call path
    after.context.analyzer = some (full, o.1.analyzer) ∧ after.context.config = c.config ∧
      after.disk = o.2 ∧ ∀ l, after.result = .ok l → ∃ s, o.1.result = .ok s ∧
        l = (c.install s (w.provider.engineFor? full)).2 := by
  obtain ⟨hcall, hfull, ha⟩ := of_analyzerAt? h
  dsimp only
  rw [load, if_neg (Bool.eq_false_iff.mp hcall)]
  simp only [hfull, ha]
  cases hmade : (c.modelOf w now call full a).1.result with
  | error e =>
    refine ⟨rfl, rfl, rfl, fun l hl => ?_⟩
    cases hl
  | ok s =>
    obtain ⟨hanalyzer, hconfig, hloaded⟩ := openAndInstall_keeps
      { c with analyzer := some (full, (c.modelOf w now call full a).1.analyzer) }
      { w with disk := (c.modelOf w now call full a).2 } (c.modelOf w now call full a).1.call full s
    exact ⟨hanalyzer, hconfig, rfl, fun l hl => ⟨s, rfl, hloaded l hl⟩⟩

/-- Without a cache a model comes from an analysis. -/
theorem modelOf_of_cache?_none {full : String} {a : Analyzer} (h : c.cache? a.config = none) :
    c.modelOf w now call full a = (a.analyzeSolution w call full, w.disk) := by
  simp only [modelOf, h, cachedModel?, Option.bind_none, keepModel, Option.getD_none]
  split
  · rfl
  · rfl

theorem filesNamed_keepModel {d : Disk} (hd : d.FilesNamed) (cache : Option SolutionCache) (now : Nat)
    (path : String) (s : Solution) : (keepModel cache d now path s).FilesNamed := by
  unfold keepModel
  cases cache with
  | none => exact hd
  | some cache =>
    rw [Option.bind_some]
    cases hstore : cache.store d now path s with
    | error e => exact hd
    | ok d' =>
      cases hfolder : d.makeFolder now cache.dir with
      | error e =>
        rw [SolutionCache.store, hfolder] at hstore
        cases hstore
      | ok d₀ => exact SolutionCache.filesNamed_store hfolder hstore hd

/-- What an analyzer remembers after a load has made a model with it. -/
theorem remembering_modelOf {new a : Analyzer} {d : Disk} {looks : List Look}
    (h : Session.Remembering new ⟨d, a, looks⟩) {m : Manner} (hm : m.provider = .workspace)
    (environment : String → Option String) (c : Context) (now : Nat) (call : Call) (full : String) :
    let made := c.modelOf { m.workspace d with environment } now call full a
    Session.Remembering new ⟨made.2, made.1.analyzer, looks ++ looksOf a.config d full⟩ := by
  have hconfig : a.config = new.config := h.config
  have hdisk : ({ m.workspace d with environment } : Workspace).disk = d := rfl
  -- The environment is for settings, and not read by an analysis.
  have hanalysis : a.analyzeSolution { m.workspace d with environment } call full =
      a.analyzeSolution (m.workspace d) call full := rfl
  have hafter := h.analyzeSolution hm call full
  have hnamed := h.filesNamed_looksOf new.config full
  unfold modelOf
  rw [hconfig, hdisk, hanalysis]
  dsimp only
  split
  · exact h.more hnamed
  · split
    · exact hafter.on_disk (filesNamed_keepModel h.filesNamed _ _ _ _)
    · exact hafter

/-- A load without a cache installs what the analysis finds, if its caller does not give up. -/
theorem load_ok (hw : w.provider = .workspace) (hcall : call.cancelled = false) {full : String}
    (hfull : w.disk.canonical path = .ok full) {a : Analyzer} (ha : c.analyzerFor w full = .ok a)
    (hcache : c.cache? a.config = none) {s : Solution}
    (hok : (a.analyzeSolution w call full).result = .ok s)
    (hgoes : (a.analyzeSolution w call full).call.cancelled = false) :
    (c.load w now call path).result = .ok (.ofSolution s none) := by
  rw [load, if_neg (Bool.eq_false_iff.mp hcall)]
  simp only [hfull, ha, modelOf_of_cache?_none hcache, hok, openAndInstall, hw, hgoes]
  rfl

/-- A new context loads what a new analyzer finds. -/
theorem load_new {config : ContextConfig} (hpersist : config.usePersistedCache = false)
    (hw : w.provider = .workspace) (hgoes : ∀ moment, w.givesUp moment = false) {full : String}
    (hfull : w.disk.canonical path = .ok full) {settings : AnalyzerConfig}
    (hsettings : (Context.new config).settingsFor w full = .ok settings)
    (hcache : settings.cache.enabled = false) {new : Analyzer}
    (hnew : Analyzer.ofConfig settings = .ok new) {s : Solution} (hok : (new.analyzeSolution w {} full).result = .ok s) :
    ((Context.new config).load w now {} path).result = .ok (.ofSolution s none) := by
  have hcall : ({} : Call).cancelled = false := rfl
  have ha : (Context.new config).analyzerFor w full = .ok new := by
    simp only [analyzerFor, Context.new] at hsettings ⊢
    rw [hsettings]
    exact hnew
  have hnone : (Context.new config).cache? new.config = none := by
    rw [cache?, (Analyzer.ofConfig_ok hnew).1, hcache]
    simp only [Context.new, hpersist]
    rfl
  exact load_ok hw hcall hfull ha hnone hok (Analyzer.call_analyzeSolution hw hgoes hcall)

end Context

/-! ## Sessions -/

/-- What may happen to a context and to the files. -/
inductive ContextEvent where
  | edit (change : FileEdit)
  | load (manner : Manner) (now : Nat) (path : String)
  | install (s : Solution) (engine : Option Engine)
  | clear

/-- Loads are made by the provider that knows the disk. -/
def ContextEvent.ByWorkspace : ContextEvent → Prop
  | .load manner _ _ => manner.provider = .workspace
  | _ => True

/-- A context that was given no settings and keeps nothing on disk, the files, and what has been seen of
them. -/
structure ContextSession where
  environment : String → Option String
  disk : Disk := {}
  context : Context := .new {}
  /-- The path that the context keeps an analyzer for, and the files as they were when the settings of
  that analyzer were read. -/
  settled : Option (String × Disk) := none
  /-- What the loads have looked at. -/
  looks : List Look := []

namespace ContextSession

def start (environment : String → Option String) : ContextSession :=
  { environment }

def workspace (s : ContextSession) (m : Manner) : Workspace :=
  { m.workspace s.disk with environment := s.environment }

/-- The settings that a state of the files gives for a path. -/
def settingsIn (s : ContextSession) (d : Disk) (full : String) : Except AnalysisError AnalyzerConfig :=
  AnalyzerConfig.load s.environment d (AnalyzerConfig.directoryFor d full)

/-- The files that the settings in force for a path are read from: as they were when the path was loaded
first after another one or after a clear. -/
def settingsDisk (s : ContextSession) (full : String) : Disk :=
  match s.settled with
  | some (known, d) => if known = full then d else s.disk
  | none => s.disk

/-- The settings in force for a path. -/
def settings (s : ContextSession) (full : String) : Except AnalysisError AnalyzerConfig :=
  s.settingsIn (s.settingsDisk full) full

def analyzerAt? (s : ContextSession) (m : Manner) (path : String) : Option (String × Analyzer) :=
  s.context.analyzerAt? (s.workspace m) m.call path

/-- What a load looks at. -/
def looksAt (s : ContextSession) (m : Manner) (path : String) : List Look :=
  match s.analyzerAt? m path with
  | none => []
  | some (full, a) => looksOf a.config s.disk full

def step (s : ContextSession) : ContextEvent → ContextSession
  | .edit change => { s with disk := change.on s.disk }
  | .load m now path =>
    let o := s.context.load (s.workspace m) now m.call path
    { s with
      disk := o.disk
      context := o.context
      settled :=
        match s.analyzerAt? m path with
        | none => s.settled
        | some (full, _) => some (full, s.settingsDisk full)
      looks := s.looks ++ s.looksAt m path }
  | .install model engine => { s with context := (s.context.install model engine).1 }
  | .clear => { s with context := s.context.clear, settled := none }

def run (s : ContextSession) (events : List ContextEvent) : ContextSession :=
  events.foldl step s

/-- The settings of a path that the context keeps an analyzer for are those that were read for it. -/
theorem settings_of_settled {s : ContextSession} {full : String} {d : Disk}
    (h : s.settled = some (full, d)) : s.settings full = s.settingsIn d full := by
  rw [settings, settingsDisk, h]
  simp only [if_true]

/-- The settings of any other path are read anew. -/
theorem settings_of_not_settled {s : ContextSession} {full : String}
    (h : ¬∃ d, s.settled = some (full, d)) : s.settings full = s.settingsIn s.disk full := by
  rw [settings, settingsDisk]
  split
  · rename_i known d hsettled
    have hother : known ≠ full := by
      rintro rfl
      exact h ⟨d, hsettled⟩
    rw [if_neg hother]
  · rfl

/-- The analyzer that the context keeps has the settings in force for its path, and remembers of the
projects what it has found. -/
structure Settled (s : ContextSession) : Prop where
  filesNamed : s.disk.FilesNamed
  looksNamed : ∀ l ∈ s.looks, l.disk.FilesNamed
  config : s.context.config = {}
  nothing : s.context.analyzer = none → s.settled = none
  kept : ∀ full a, s.context.analyzer = some (full, a) → ∃ d settings new,
    s.settled = some (full, d) ∧ s.settingsIn d full = .ok settings ∧ Analyzer.ofConfig settings = .ok new ∧
      Session.Remembering new ⟨s.disk, a, s.looks⟩

namespace Settled

variable {s : ContextSession} {m : Manner} {path full : String} {a : Analyzer}

theorem start (environment : String → Option String) : (ContextSession.start environment).Settled where
  filesNamed := Disk.filesNamed_empty
  looksNamed := by
    intro l hl
    cases hl
  config := rfl
  nothing := fun _ => rfl
  kept := by
    intro full a h
    cases h

theorem not_settled (h : s.Settled) (hnone : ∀ a, s.context.analyzer ≠ some (full, a)) :
    ¬∃ d, s.settled = some (full, d) := by
  rintro ⟨d, hsettled⟩
  cases hslot : s.context.analyzer with
  | none =>
    rw [h.nothing hslot] at hsettled
    cases hsettled
  | some known =>
    obtain ⟨known, a⟩ := known
    obtain ⟨d', -, -, hsettled', -⟩ := h.kept known a hslot
    rw [hsettled] at hsettled'
    cases hsettled'
    exact hnone a hslot

/-- An analyzer that a load is made with has the settings in force and has not forgotten what it has
found. -/
theorem of_analyzerAt? (h : s.Settled) (hat : s.analyzerAt? m path = some (full, a)) :
    m.call.cancelled = false ∧ s.disk.canonical path = .ok full ∧ ∃ settings new,
      s.settings full = .ok settings ∧ Analyzer.ofConfig settings = .ok new ∧
        Session.Remembering new ⟨s.disk, a, s.looks⟩ := by
  obtain ⟨hcall, hfull, ha⟩ := Context.of_analyzerAt? hat
  refine ⟨hcall, hfull, ?_⟩
  rcases Context.analyzerFor_ok ha with hslot | ⟨hnone, settings, hsettings, hnew⟩
  · obtain ⟨d, settings, new, hsettled, hsettings, hnew, hremembering⟩ := h.kept full a hslot
    exact ⟨settings, new, (settings_of_settled hsettled).trans hsettings, hnew, hremembering⟩
  · obtain ⟨-, -, hdocuments, -⟩ := Analyzer.ofConfig_ok hnew
    refine ⟨settings, a, ?_, hnew, .of_new hdocuments h.filesNamed h.looksNamed⟩
    have hread : s.settingsIn s.disk full = .ok settings := by
      rw [Context.settingsFor, h.config] at hsettings
      exact hsettings
    exact (settings_of_not_settled (h.not_settled hnone)).trans hread

theorem load (h : s.Settled) (hm : m.provider = .workspace) (now : Nat) (path : String) :
    (s.step (.load m now path)).Settled := by
  cases hat : s.analyzerAt? m path with
  | none =>
    obtain ⟨e, hload⟩ := Context.load_of_none hat now
    have hsame : s.step (.load m now path) = s := by
      simp only [step, looksAt, hat, hload, List.append_nil]
      rfl
    exact hsame.symm ▸ h
  | some used =>
    obtain ⟨full, a⟩ := used
    obtain ⟨-, -, settings, new, hsettings, hnew, hremembering⟩ := h.of_analyzerAt? hat
    obtain ⟨hslot, hconfig, hdisk, -⟩ := Context.load_of_some hat now
    have hafter :=
      Context.remembering_modelOf hremembering hm s.environment s.context now m.call full
    have hsettled : (s.step (.load m now path)).settled = some (full, s.settingsDisk full) := by
      simp only [step, hat]
    have hlooks : (s.step (.load m now path)).looks = s.looks ++ looksOf a.config s.disk full := by
      simp only [step, looksAt, hat]
    have hcontext : (s.step (.load m now path)).context =
        (s.context.load (s.workspace m) now m.call path).context := rfl
    have hfiles : (s.step (.load m now path)).disk =
        (s.context.modelOf (s.workspace m) now m.call full a).2 := hdisk
    refine ⟨?_, ?_, ?_, ?_, ?_⟩
    · rw [hfiles]
      exact hafter.filesNamed
    · rw [hlooks]
      exact hafter.looksNamed
    · rw [hcontext, hconfig, h.config]
    · rw [hcontext, hslot]
      nofun
    · rw [hcontext, hslot, hfiles, hlooks]
      rintro full' a' heq
      cases heq
      exact ⟨s.settingsDisk full, settings, new, hsettled, hsettings, hnew, hafter⟩

theorem step (h : s.Settled) {e : ContextEvent} (he : e.ByWorkspace) : (s.step e).Settled := by
  cases e with
  | edit change =>
    refine ⟨h.filesNamed.edit change, h.looksNamed, h.config, h.nothing, fun full a ha => ?_⟩
    obtain ⟨d, settings, new, hsettled, hsettings, hnew, hremembering⟩ := h.kept full a ha
    exact ⟨d, settings, new, hsettled, hsettings, hnew, hremembering.on_disk (h.filesNamed.edit change)⟩
  | load m now path => exact h.load he now path
  | install model engine => exact { h with }
  | clear => exact ⟨h.filesNamed, h.looksNamed, h.config, fun _ => rfl, nofun⟩

theorem run {events : List ContextEvent} (h : s.Settled) (hevents : ∀ e ∈ events, e.ByWorkspace) :
    (s.run events).Settled := by
  unfold ContextSession.run
  induction events generalizing s with
  | nil => exact h
  | cons e events ih =>
    obtain ⟨he, hevents⟩ := List.forall_mem_cons.mp hevents
    exact ih (h.step he) hevents

/-- A load without a cache has found what a new analyzer with the settings in force finds. -/
theorem found_of_load (h : s.Settled) (hm : m.provider = .workspace)
    (hat : s.analyzerAt? m path = some (full, a)) {settings : AnalyzerConfig} {new : Analyzer}
    (hnew : Analyzer.ofConfig settings = .ok new)
    (hremembering : Session.Remembering new ⟨s.disk, a, s.looks⟩) (hcache : settings.cache.enabled = false)
    (htimes : TimesTell (s.looks ++ s.looksAt m path)) {now : Nat} {l : LoadedSolution}
    (hok : (s.context.load (s.workspace m) now m.call path).result = .ok l) :
    ∃ found, l = .ofSolution found none ∧
      (new.analyzeSolution (s.workspace {}) {} full).result = .ok found := by
  obtain ⟨hconfig, -, hdocuments, -⟩ := Analyzer.ofConfig_ok hnew
  have hsame : a.config = settings := hremembering.config.trans hconfig
  have hnone : s.context.cache? a.config = none := by
    rw [Context.cache?, hsame, hcache, h.config]
    rfl
  obtain ⟨-, -, -, hmodel⟩ := Context.load_of_some hat now
  obtain ⟨found, hfound, hl⟩ := hmodel l hok
  have hprovider : (s.workspace m).provider = .workspace := hm
  rw [hprovider] at hl
  rw [Context.modelOf_of_cache?_none hnone] at hfound
  have hlooks : s.looksAt m path = looksOf new.config s.disk full := by
    simp only [looksAt, hat]
    rw [hsame, hconfig]
  rw [hlooks] at htimes
  exact ⟨found, hl, hremembering.solution_eq hdocuments hm htimes hfound⟩

end Settled

/-- After any loads that have succeeded, failed or been given up, models put in place, clears and changes
of the files, a load that succeeds without a cache gives what a new context loads that is given the
settings in force. So it gives what any new context loads, if the settings of the path are not those
that were read before, or are still the same. -/
theorem load_eq_new {environment : String → Option String} {events : List ContextEvent}
    (hevents : ∀ e ∈ events, e.ByWorkspace) {s : ContextSession}
    (hs : (start environment).run events = s) {m : Manner} (hm : m.provider = .workspace) {now : Nat}
    {path : String} (htimes : TimesTell (s.looks ++ s.looksAt m path)) {l : LoadedSolution}
    (hok : (s.context.load (s.workspace m) now m.call path).result = .ok l) :
    ∃ full settings, s.disk.canonical path = .ok full ∧ s.settings full = .ok settings ∧
      (settings.cache.enabled = false →
        ((Context.new { analyzer := some settings }).load (s.workspace {}) now {} path).result = .ok l ∧
        (((∃ d, s.settled = some (full, d)) → s.settingsIn s.disk full = .ok settings) →
          ((Context.new {}).load (s.workspace {}) now {} path).result = .ok l)) := by
  have h : s.Settled := hs ▸ (Settled.start environment).run hevents
  cases hat : s.analyzerAt? m path with
  | none =>
    obtain ⟨e, hload⟩ := Context.load_of_none hat now
    have hfails : (s.context.load (s.workspace m) now m.call path).result = .error e := congrArg _ hload
    rw [hfails] at hok
    cases hok
  | some used =>
    obtain ⟨full, a⟩ := used
    obtain ⟨-, hfull, settings, new, hsettings, hnew, hremembering⟩ := h.of_analyzerAt? hat
    refine ⟨full, settings, hfull, hsettings, fun hcache => ?_⟩
    obtain ⟨found, rfl, hscratch⟩ := h.found_of_load hm hat hnew hremembering hcache htimes hok
    have hloaded (config : ContextConfig) (hpersist : config.usePersistedCache = false)
        (hread : (Context.new config).settingsFor (s.workspace {}) full = .ok settings) :
        ((Context.new config).load (s.workspace {}) now {} path).result = .ok (.ofSolution found none) :=
      Context.load_new hpersist rfl (fun _ => rfl) hfull hread hcache hnew hscratch
    refine ⟨hloaded _ rfl rfl, fun hread => hloaded _ rfl ?_⟩
    have hnow : s.settingsIn s.disk full = .ok settings := by
      by_cases hsettled : ∃ d, s.settled = some (full, d)
      · exact hread hsettled
      · exact (settings_of_not_settled hsettled).symm.trans hsettings
    exact hnow

theorem disk_of_mem_looksAt {s : ContextSession} {m : Manner} {path : String} :
    ∀ l ∈ s.looksAt m path, l.disk = s.disk := by
  intro l hl
  unfold looksAt at hl
  split at hl
  · cases hl
  · exact disk_of_mem_looksOf l hl

/-! ## Settings that have changed -/

namespace Changed

open Session.Moved (text outline ofSource_text)

/-- The manifest is hidden, so that a scan lists the document alone. -/
def manifest : String := "/p/.a.csproj"

/-- A project with a document. -/
def opened : ContextSession :=
  (start fun _ => none).run
    [.edit (.write 1 manifest ⟨.empty, 1⟩), .edit (.write 1 "/p/K.cs" ⟨text.toUTF8, 1⟩)]

/-- The project is loaded, and then a settings file is written that leaves its document out. -/
def events (p : Provider) : List ContextEvent :=
  [.edit (.write 1 manifest ⟨.empty, 1⟩), .edit (.write 1 "/p/K.cs" ⟨text.toUTF8, 1⟩),
    .load { provider := p } 1 manifest,
    .edit (.write 2 "/p/.codeintel.toml" ⟨"exclude_patterns = ['K.cs']".toUTF8, 2⟩)]

def session (p : Provider) : ContextSession :=
  (start fun _ => none).run (events p)

/-- The project is loaded again. -/
def again (p : Provider) : Except QueryError LoadedSolution :=
  ((session p).context.load ((session p).workspace { provider := p }) 3 {} manifest).result

/-- A new context loads the project. -/
def anew (p : Provider) : Except QueryError LoadedSolution :=
  ((Context.new {}).load ((session p).workspace { provider := p }) 3 {} manifest).result

/-- The document is in what is loaded again, and a new context leaves it out. -/
theorem differs : ∃ l l', again .workspace = .ok l ∧ anew .workspace = .ok l' ∧
    (∃ project ∈ l.solution.projects, DeclaresKey project.declared "T:K") ∧
    ∀ project ∈ l'.solution.projects, project.declared = [] := by
  have hagain : (again (.knowing text outline)).toOption.any (fun l =>
      l.solution.projects.any fun project => project.declared.any (·.key == "T:K")) = true := by
    decide +kernel
  have hanew : (anew (.knowing text outline)).toOption.any (fun l =>
      l.solution.projects.all fun project => project.declared.isEmpty) = true := by
    decide +kernel
  rw [Provider.knowing_eq ofSource_text] at hagain hanew
  obtain ⟨l, hl, hdeclared⟩ := Except.exists_ok_of_any hagain
  obtain ⟨l', hl', hempty⟩ := Except.exists_ok_of_any hanew
  obtain ⟨project, hproject, hany⟩ := List.any_eq_true.mp hdeclared
  obtain ⟨p, hp, hkey⟩ := List.any_eq_true.mp hany
  refine ⟨l, l', hl, hl', ⟨project, hproject, p, hp, .inl (beq_iff_eq.mp hkey)⟩, ?_⟩
  exact fun project' hproject' => List.isEmpty_iff.mp (List.all_eq_true.mp hempty project' hproject')

/-- The settings in force are the defaults. -/
theorem settings_session : (session .workspace).disk.canonical manifest = .ok manifest ∧
    (session .workspace).settings manifest = .ok {} := by
  have hrun : (session (.knowing text outline)).disk.canonical manifest = .ok manifest ∧
      (session (.knowing text outline)).settings manifest = .ok {} := by
    decide +kernel
  rw [Provider.knowing_eq ofSource_text] at hrun
  exact hrun

theorem timesTell : TimesTell ((session .workspace).looks ++ (session .workspace).looksAt {} manifest) := by
  have hnamed : opened.disk.FilesNamed := by
    simp only [opened, run, List.foldl, step, start]
    exact (Disk.filesNamed_empty.edit _).edit _
  have hbytes : ∀ e ∈ opened.disk.files,
      opened.disk.readBytes e.1.path = (session (.knowing text outline)).disk.readBytes e.1.path := by
    decide +kernel
  rw [Provider.knowing_eq ofSource_text] at hbytes
  have hlooks : (session .workspace).looks = opened.looksAt {} manifest := by
    simp only [session, events, opened, run, List.foldl, step, start, List.nil_append]
  generalize opened = first at *
  generalize session .workspace = s at *
  refine .of_added hnamed hbytes fun l hl => ?_
  rw [hlooks] at hl
  rcases List.mem_append.mp hl with hl | hl
  · exact .inl (disk_of_mem_looksAt l hl)
  · exact .inr (disk_of_mem_looksAt l hl)

end Changed

/-- The settings file has been written since the project was loaded first. The second load gives what a
new context loads with the settings that were in force, and not what it loads with those of the file. -/
theorem load_eq_new_stale : ∃ l l', Changed.again .workspace = .ok l ∧
    ((Context.new { analyzer := some {} }).load ((Changed.session .workspace).workspace {}) 3 {}
      Changed.manifest).result = .ok l ∧
    Changed.anew .workspace = .ok l' ∧
    (∃ project ∈ l.solution.projects, DeclaresKey project.declared "T:K") ∧
    ∀ project ∈ l'.solution.projects, project.declared = [] := by
  obtain ⟨l, l', hl, hl', hdeclares, hempty⟩ := Changed.differs
  have hevents : ∀ e ∈ Changed.events .workspace, e.ByWorkspace := by
    simp [Changed.events, ContextEvent.ByWorkspace]
  have hs : (start fun _ => none).run (Changed.events .workspace) = Changed.session .workspace := rfl
  have htimes := Changed.timesTell
  obtain ⟨hpath, hdefaults⟩ := Changed.settings_session
  refine ⟨l, l', hl, ?_, hl', hdeclares, hempty⟩
  rw [Changed.again] at hl
  generalize Changed.session .workspace = s at *
  obtain ⟨full, settings, hfull, hsettings, hload⟩ :=
    load_eq_new hevents hs (m := {}) rfl htimes hl
  obtain rfl : Changed.manifest = full := Except.ok.inj (hpath.symm.trans hfull)
  obtain rfl : {} = settings := Except.ok.inj (hdefaults.symm.trans hsettings)
  exact (hload rfl).1

end ContextSession

end SolutionAtlas
