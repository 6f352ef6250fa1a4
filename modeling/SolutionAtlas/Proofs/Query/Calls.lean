-- SUMMARY: Callers, callees and usages against what an engine has answered.
import Mathlib
import SolutionAtlas.Proofs.Model.Merge
import SolutionAtlas.Proofs.Places
import SolutionAtlas.Query.Calls

/-!
# Calls and usages

What a query lists is told from the answer of the engine. Callers are merged: each stands where it was first
mentioned, with the sites of all its mentions. Of callees the first mention stays. A usage shows its reference
and a source line, whatever files have been looked at for the references before it.
-/

namespace SolutionAtlas

/-! ## Callers -/

/-- Adds the call sites of a caller to whatever entries are the same, or else the caller. -/
def mergeCaller (acc : List Caller) (c : Caller) : List Caller :=
  if c.caller.identity ∈ acc.map (·.caller.identity) then
    acc.map fun a =>
      if a.caller.identity = c.caller.identity then
        { a with callSites := unionInto a.callSites c.callSites }
      else a
  else acc ++ [c]

namespace CallerMerge

variable {m : CallerMerge}

/-- Every caller is found where it stands. -/
def Positioned (m : CallerMerge) : Prop :=
  m.positions.Locates (Table.keyIn (·.caller.identity) m.order)

/-- The place that is kept is that of the one entry that is the same. -/
theorem Positioned.order_add (h : m.Positioned) (c : Caller) : (m.add c).order = mergeCaller m.order c := by
  rw [mergeCaller, add]
  cases hplace : m.positions.get? c.caller.identity with
  | none => rw [if_neg (h.get?_eq_none_iff_not_mem.mp hplace)]
  | some i =>
    obtain ⟨first, hfirst, hidentity⟩ := Table.keyIn_eq_some.mp ((h _ i).mp hplace)
    rw [if_pos (List.mem_map.mpr ⟨first, List.mem_of_getElem? hfirst, hidentity⟩)]
    refine (map_eq_modify fun j a ha => ?_).symm
    have hsame : a.caller.identity = c.caller.identity ↔ i = j := by
      constructor
      · exact fun heq => h.inj ((h _ i).mp hplace) (Table.keyIn_eq_some.mpr ⟨a, ha, heq⟩)
      · rintro rfl
        exact Option.some.inj (hfirst.symm.trans ha) ▸ hidentity
    simp only [hsame]

theorem Positioned.add (h : m.Positioned) (c : Caller) : (m.add c).Positioned := by
  rw [CallerMerge.add]
  cases hplace : m.positions.get? c.caller.identity with
  | none => exact Table.Locates.concat h hplace
  | some i =>
    refine Table.Locates.modify h ?_ i
    exact fun _ => rfl

end CallerMerge

/-- Merging by places does what merging by identities does. -/
theorem mergeCallers_eq_foldl (found : List Caller) : mergeCallers found = found.foldl mergeCaller [] := by
  have hloop (m : CallerMerge) (h : m.Positioned) :
      (found.foldl CallerMerge.add m).order = found.foldl mergeCaller m.order := by
    induction found generalizing m with
    | nil => rfl
    | cons c found ih => rw [List.foldl_cons, List.foldl_cons, ih _ (h.add c), h.order_add]
  exact hloop {} Table.locates_nil

/-- The sites that are reported for an identity, in order. -/
def sitesOf (found : List Caller) (identity : String) : List Location :=
  (found.filter (·.caller.identity == identity)).flatMap (·.callSites)

/-- A mention of a caller, with the sites of all its mentions. -/
def Caller.withSites (found : List Caller) (c : Caller) : Caller :=
  { c with callSites := unionInto c.callSites (sitesOf found c.caller.identity) }

section Callers

variable {found : List Caller} {c m : Caller} {site : Location}

theorem mem_sitesOf {identity : String} :
    site ∈ sitesOf found identity ↔ ∃ c ∈ found, c.caller.identity = identity ∧ site ∈ c.callSites := by
  simp [sitesOf, and_assoc]

theorem sitesOf_concat (found : List Caller) (c : Caller) (identity : String) :
    sitesOf (found ++ [c]) identity =
      sitesOf found identity ++ if c.caller.identity = identity then c.callSites else [] := by
  rw [sitesOf, sitesOf, List.filter_append, List.flatMap_append]
  congr 1
  by_cases h : c.caller.identity = identity <;> simp [h]

theorem sitesOf_of_not_mem {identity : String} (h : identity ∉ found.map (·.caller.identity)) :
    sitesOf found identity = [] := by
  refine List.eq_nil_iff_forall_not_mem.mpr fun site hsite => ?_
  obtain ⟨c, hc, hidentity, -⟩ := mem_sitesOf.mp hsite
  exact h (List.mem_map.mpr ⟨c, hc, hidentity⟩)

/-- A further mention of a caller adds its sites to the one entry that is the same. -/
theorem withSites_concat (found : List Caller) (c m : Caller) :
    m.withSites (found ++ [c]) =
      if m.caller.identity = c.caller.identity then
        { m.withSites found with callSites := unionInto (m.withSites found).callSites c.callSites }
      else m.withSites found := by
  rw [Caller.withSites, sitesOf_concat]
  by_cases h : m.caller.identity = c.caller.identity
  · rw [if_pos h.symm, if_pos h, unionInto, List.foldl_append]
    rfl
  · rw [if_neg (Ne.symm h), if_neg h, List.append_nil]
    rfl

/-- A caller without earlier mentions comes with the sites that it is mentioned with. -/
theorem withSites_new (h : c.caller.identity ∉ found.map (·.caller.identity)) :
    c.withSites (found ++ [c]) = c := by
  rw [Caller.withSites, sitesOf_concat, sitesOf_of_not_mem h, List.nil_append, if_pos rfl,
    unionInto_eq_left_iff.mpr (List.Subset.refl _)]

/-- Merging keeps the first mention of every caller, and gives it the sites of all mentions. -/
theorem mergeCallers_eq (found : List Caller) :
    mergeCallers found = (firstOfEach (·.caller.identity) found).map (Caller.withSites found) := by
  induction found using List.reverseRecOn with
  | nil => rfl
  | append_singleton found c ih =>
    have hfold : mergeCallers (found ++ [c]) = mergeCaller (mergeCallers found) c := by
      rw [mergeCallers_eq_foldl, mergeCallers_eq_foldl, List.foldl_concat]
    have hkeys : c.caller.identity ∈ (mergeCallers found).map (·.caller.identity) ↔
        c.caller.identity ∈ found.map (·.caller.identity) := by
      rw [ih, List.map_map]
      exact mem_keys_firstOfEach
    rw [hfold, mergeCaller, firstOfEach_concat]
    by_cases hseen : c.caller.identity ∈ found.map (·.caller.identity)
    · rw [if_pos (hkeys.mpr hseen), if_pos hseen, ih, List.map_map]
      refine List.map_congr_left fun m _ => ?_
      rw [withSites_concat]
      by_cases hsame : m.caller.identity = c.caller.identity <;> simp [hsame, Caller.withSites]
    · rw [if_neg (mt hkeys.mp hseen), if_neg hseen, ih, List.map_append, List.map_singleton,
        withSites_new hseen]
      congr 1
      refine List.map_congr_left fun m hm => ?_
      have hmem : m.caller.identity ∈ found.map (·.caller.identity) :=
        mem_keys_firstOfEach.mp (List.mem_map_of_mem hm)
      have hother : m.caller.identity ≠ c.caller.identity := by
        rintro heq
        exact hseen (heq ▸ hmem)
      rw [withSites_concat, if_neg hother]

/-- The entry of a caller says who it is and has the sites of all its mentions. Those of the first mention stand in
front as they were reported, and none of the others is repeated. -/
structure Caller.Gathers (found : List Caller) (first m : Caller) : Prop where
  caller : m.caller = first.caller
  mem_sites : ∀ site, site ∈ m.callSites ↔
    ∃ c ∈ found, c.caller.identity = first.caller.identity ∧ site ∈ c.callSites
  first_sites : first.callSites <+: m.callSites
  nodup_iff : m.callSites.Nodup ↔ first.callSites.Nodup

theorem gathers_withSites (h : c ∈ found) : c.Gathers found (c.withSites found) where
  caller := rfl
  mem_sites site := by
    rw [Caller.withSites, mem_unionInto, mem_sitesOf, or_iff_right_iff_imp]
    exact fun hsite => ⟨c, h, rfl, hsite⟩
  first_sites := by
    rw [Caller.withSites, unionInto_eq]
    exact List.prefix_append _ _
  nodup_iff := nodup_unionInto

theorem forall₂_gathers (found : List Caller) :
    List.Forall₂ (Caller.Gathers found) (firstOfEach (·.caller.identity) found) (mergeCallers found) := by
  rw [mergeCallers_eq, List.forall₂_map_right_iff, List.forall₂_same]
  exact fun c hc => gathers_withSites (mem_of_mem_firstUnseen hc)

end Callers

/-! ## Source lines -/

/-- The file has the line, under a number counted from one. -/
def Disk.HasLine (d : Disk) (path : String) (n : Nat) (line : String) : Prop :=
  ∃ text, d.readText path = .ok text ∧ 1 ≤ n ∧ (Text.lines text)[n - 1]? = some line

namespace SourceLines

variable {kept : SourceLines} {d : Disk} {path : String} {n : Nat}

/-- Every file that has been looked at is kept as it is on the disk. -/
def Agree (kept : SourceLines) (d : Disk) : Prop :=
  ∀ path lines, kept.get? path = some lines → lines = (d.readText path).toOption.map Text.lines

theorem Agree.nil (d : Disk) : Agree [] d := by
  intro path lines h
  cases h

/-- Looking at a file gives its lines on the disk, whether it has been looked at before or not. -/
theorem Agree.ofFile (h : kept.Agree d) (path : String) :
    (kept.ofFile d path).1 = (d.readText path).toOption.map Text.lines ∧ (kept.ofFile d path).2.Agree d := by
  rw [SourceLines.ofFile]
  split
  · rename_i lines hkept
    exact ⟨h path lines hkept, h⟩
  · refine ⟨rfl, fun other lines hother => ?_⟩
    rw [Table.get?_insert] at hother
    split at hother
    · rename_i hpath
      rw [← Option.some.inj hother, hpath]
    · exact h other lines hother

theorem Agree.line? (h : kept.Agree d) (path : String) (n : Nat) : (kept.line? d path n).2.Agree d := by
  have hagree := (h.ofFile path).2
  rw [SourceLines.line?]
  generalize kept.ofFile d path = looked at hagree ⊢
  dsimp only
  split <;> exact hagree

/-- A line is found when the file has it, and then without blanks around it. -/
theorem Agree.line?_eq_some_iff (h : kept.Agree d) {shown : String} :
    (kept.line? d path n).1 = some shown ↔ ∃ line, d.HasLine path n line ∧ shown = Text.trim line := by
  have hlines := (h.ofFile path).1
  rw [SourceLines.line?]
  generalize kept.ofFile d path = looked at hlines ⊢
  dsimp only
  rw [hlines]
  cases hread : d.readText path with
  | error cause =>
    simp [Disk.HasLine, hread, Except.toOption]
  | ok text =>
    cases n with
    | zero => simp [Disk.HasLine, Except.toOption]
    | succ n => simp [Disk.HasLine, hread, Except.toOption, eq_comm]

end SourceLines

/-! ## Usages -/

/-- The usage shows the reference. When the engine has sent no source line, it shows the line that the file has on
the disk, or else an empty one. -/
structure Usage.Shows (d : Disk) (hit : ReferenceHit) (u : Usage) : Prop where
  filePath : u.filePath = hit.location.filePath
  line : u.line = hit.location.startLine
  column : u.column = hit.location.startColumn
  write_iff : u.kind = .write ↔ hit.isWrite = true
  implicit_iff : u.kind = .implicit ↔ hit.isWrite = false ∧ hit.isImplicit = true
  sent : ∀ text, hit.snippet = some text → u.snippet = Text.trim text
  found : hit.snippet = none → ∀ line, d.HasLine hit.location.filePath hit.location.startLine line →
    u.snippet = Text.trim line
  missing : hit.snippet = none → (∀ line, ¬d.HasLine hit.location.filePath hit.location.startLine line) →
    u.snippet = ""

section Usages

variable {kept : SourceLines} {d : Disk}

theorem ReferenceHit.kind_eq_write_iff (hit : ReferenceHit) : hit.kind = .write ↔ hit.isWrite = true := by
  cases hwrite : hit.isWrite <;> cases himplicit : hit.isImplicit <;> simp [kind, hwrite, himplicit]

theorem ReferenceHit.kind_eq_implicit_iff (hit : ReferenceHit) :
    hit.kind = .implicit ↔ hit.isWrite = false ∧ hit.isImplicit = true := by
  cases hwrite : hit.isWrite <;> cases himplicit : hit.isImplicit <;> simp [kind, hwrite, himplicit]

/-- One reference is shown as it is, and what is kept of the disk stays right. -/
theorem SourceLines.Agree.ofHit (h : kept.Agree d) (hit : ReferenceHit) :
    Usage.Shows d hit (Usage.ofHit kept d hit).1 ∧ (Usage.ofHit kept d hit).2.Agree d := by
  rw [Usage.ofHit]
  cases hsnippet : hit.snippet with
  | some text =>
    refine ⟨⟨rfl, rfl, rfl, hit.kind_eq_write_iff, hit.kind_eq_implicit_iff, ?_, ?_, ?_⟩, h⟩ <;>
      simp [hsnippet]
  | none =>
    refine ⟨⟨rfl, rfl, rfl, hit.kind_eq_write_iff, hit.kind_eq_implicit_iff, ?_, ?_, ?_⟩, h.line? _ _⟩
    · simp [hsnippet]
    · intro _ line hline
      have hfound := h.line?_eq_some_iff.mpr ⟨line, hline, rfl⟩
      dsimp only
      rw [hfound]
      rfl
    · intro _ hnone
      dsimp only
      cases hfound : (kept.line? d hit.location.filePath hit.location.startLine).1 with
      | none => rfl
      | some shown =>
        obtain ⟨line, hline, -⟩ := h.line?_eq_some_iff.mp hfound
        exact absurd hline (hnone line)

/-- References are shown in order, each as if the disk were read for it alone. -/
theorem SourceLines.Agree.usagesFrom (h : kept.Agree d) (hits : List ReferenceHit) :
    List.Forall₂ (Usage.Shows d) hits (usagesFrom kept d hits) := by
  induction hits generalizing kept with
  | nil => exact .nil
  | cons hit hits ih =>
    obtain ⟨hshows, hagree⟩ := h.ofHit hit
    exact .cons hshows (ih hagree)

end Usages

/-! ## Queries -/

namespace LoadedSolution

variable {l : LoadedSolution} {live : LiveEngine} {id : String} {target : LiveTarget}

/-- A query for callers lists the first 50 of the merged callers. They are told apart by their identities, stand in the
order of their first mentions, and have all the sites reported for them. No site of a caller is repeated exactly
when its first mention repeats none. -/
theorem callers_merged_and_cut (hlive : l.live = some live)
    (htarget : l.resolveLive live.engine id = .ok target) {found : List Caller}
    (hfound : live.engine.callers target.key = .ok found) :
    ∃ firsts merged, KeepsFirst (·.caller.identity) found firsts ∧
      List.Forall₂ (Caller.Gathers found) firsts merged ∧ (merged.map (·.caller.identity)).Nodup ∧
      l.callers id = .ok ⟨target.key, target.name, merged.take 50, decide (50 < merged.length)⟩ := by
  refine ⟨_, mergeCallers found, keepsFirst_iff.mpr rfl, forall₂_gathers found, ?_, ?_⟩
  · rw [mergeCallers_eq, List.map_map]
    exact nodup_keys_firstOfEach _ found
  · simp only [callers, requireLive, hlive, htarget, hfound, fromEngine, bind, Except.bind, Except.mapError]
    rfl

namespace Example

def mention (name : String) : SymbolRef :=
  ⟨some ("M:" ++ name), name, none, none, none⟩

def site (file : String) (line : Nat) : Location :=
  ⟨file, line, 5, line, 9⟩

/-- A method that is called twice by another one. The engine reports a site of it twice in one mention. -/
def repeated : List Caller :=
  [⟨mention "G", [site "/s/A.cs" 3, site "/s/A.cs" 3]⟩, ⟨mention "H", [site "/s/A.cs" 9]⟩,
    ⟨mention "G", [site "/s/A.cs" 3, site "/s/A.cs" 5]⟩]

/-- The body of the method makes an object and calls two methods, one of them that of the object. -/
def body : List BodyOperation :=
  [.creation (mention "G"), .invocation (mention "H"), .invocation (mention "G")]

/-- References in a file, behind its end and in front of its beginning, in a file that is not there, and one whose
line the engine has. -/
def hits : List ReferenceHit :=
  [⟨site "/s/A.cs" 2, none, false, false⟩, ⟨site "/s/B.cs" 1, none, false, true⟩,
    ⟨site "/s/A.cs" 0, none, false, false⟩, ⟨site "/s/A.cs" 3, none, false, false⟩,
    ⟨site "/s/B.cs" 1, some " x = 1; ", true, true⟩]

/-- An engine that knows one method, which is in no model. -/
def engine : Engine where
  resolve _ := .ok (some (mention "F"))
  derivedTypes _ := .ok []
  implementations _ := .ok []
  callers _ := .ok repeated
  references _ := .ok hits
  operations _ := .ok body

def disk : Disk where
  files := [(["s", "A.cs"], ⟨"class A\n  int x;\n".toUTF8, 1⟩)]
  folders := [(["s"], 1)]

/-- An empty solution with the engine. -/
def loaded : LoadedSolution :=
  ofSolution ⟨"S", "/s/S.sln", [], {}, {}⟩ (some ⟨0, engine⟩)

theorem resolveLive_loaded : loaded.resolveLive engine "F" = .ok ⟨"M:F", "F"⟩ := by
  decide +kernel

end Example

/-- The repeated site of the first mention is listed twice. -/
theorem callers_merged_and_cut_repeated :
    ∃ answer, Example.loaded.callers "F" = .ok answer ∧ ∃ m ∈ answer.callers, ¬m.callSites.Nodup := by
  have hfound : Example.engine.callers "M:F" = .ok Example.repeated := rfl
  obtain ⟨firsts, merged, hfirsts, hgathers, -, hanswer⟩ :=
    callers_merged_and_cut (l := Example.loaded) rfl Example.resolveLive_loaded hfound
  have hmentions : firsts = Example.repeated.take 2 := (keepsFirst_iff.mp hfirsts).trans (by decide +kernel)
  rw [hmentions] at hgathers
  obtain ⟨m, rest, hm, -, rfl⟩ := List.forall₂_cons_left_iff.mp hgathers
  exact ⟨_, hanswer, m, List.mem_cons_self, fun hnodup => absurd (hm.nodup_iff.mp hnodup) (by decide)⟩

/-- A query for callees lists the first operation on each symbol, in body order, cut to 100 of them; one for usages
lists the first 200 references, each with its source line on the disk, and counts all. What is cut off is told. -/
theorem callees_and_usages_cut (hlive : l.live = some live)
    (htarget : l.resolveLive live.engine id = .ok target) (d : Disk) :
    (∀ operations, live.engine.operations target.key = .ok operations →
      ∃ distinct, KeepsFirst (·.callee.identity) (operations.map Callee.ofOperation) distinct ∧
        l.callees id = .ok ⟨target.key, target.name, distinct.take 100,
          decide (100 < ((operations.map Callee.ofOperation).map (·.callee.identity)).dedup.length)⟩) ∧
      ∀ hits, live.engine.references target.key = .ok hits →
        ∃ usages, List.Forall₂ (Usage.Shows d) (hits.take 200) usages ∧
          l.usages d id = .ok ⟨target.key, target.name, hits.length, usages, decide (200 < hits.length)⟩ := by
  refine ⟨fun operations hoperations => ?_, fun hits hhits => ?_⟩
  · refine ⟨_, keepsFirst_iff.mpr rfl, ?_⟩
    simp only [callees, requireLive, hlive, htarget, hoperations, fromEngine, bind, Except.bind,
      Except.mapError, ← length_firstOfEach]
    rfl
  · refine ⟨_, (SourceLines.Agree.nil d).usagesFrom _, ?_⟩
    simp only [usages, requireLive, hlive, htarget, hhits, fromEngine, bind, Except.bind, Except.mapError]
    rfl

/-- Files are looked at in any order; what no file has is shown empty. -/
theorem callees_and_usages_cut_files :
    Example.loaded.callees "F" = .ok ⟨"M:F", "F",
        [⟨Example.mention "G", .construction⟩, ⟨Example.mention "H", .invocation⟩], false⟩ ∧
      ∃ answer, Example.loaded.usages Example.disk "F" = .ok answer ∧ answer.totalFound = 5 ∧
        answer.usages.map (·.snippet) = ["int x;", "", "", "", "x = 1;"] := by
  obtain ⟨hcallees, husages⟩ :=
    callees_and_usages_cut (l := Example.loaded) rfl Example.resolveLive_loaded Example.disk
  obtain ⟨distinct, hdistinct, hlisted⟩ := hcallees Example.body rfl
  obtain ⟨usages, hshows, hanswer⟩ := husages Example.hits rfl
  have htext : Example.disk.readText "/s/A.cs" = .ok "class A\n  int x;\n" := by decide +kernel
  have hnone : Example.disk.readText "/s/B.cs" = .error .notFound := by decide +kernel
  refine ⟨?_, _, hanswer, rfl, ?_⟩
  · rw [hlisted, keepsFirst_iff.mp hdistinct]
    decide +kernel
  · simp only [Example.hits, List.take_succ_cons, List.take_nil, List.forall₂_cons_left_iff,
      List.forall₂_nil_left_iff] at hshows
    obtain ⟨u₁, _, h₁, ⟨u₂, _, h₂, ⟨u₃, _, h₃, ⟨u₄, _, h₄, ⟨u₅, _, h₅, rfl, rfl⟩, rfl⟩, rfl⟩, rfl⟩, rfl⟩ := hshows
    have hsecond : Example.disk.HasLine "/s/A.cs" 2 "  int x;" := ⟨_, htext, by decide, by decide +kernel⟩
    have hmissing {n : Nat} {line : String} : ¬Example.disk.HasLine "/s/B.cs" n line := by
      rintro ⟨text, hread, -⟩
      rw [hnone] at hread
      cases hread
    have hzero {line : String} : ¬Example.disk.HasLine "/s/A.cs" 0 line := by
      rintro ⟨text, -, hpos, -⟩
      cases hpos
    have hbehind {line : String} : ¬Example.disk.HasLine "/s/A.cs" 3 line := by
      rintro ⟨text, hread, -, hline⟩
      rw [htext] at hread
      cases hread
      have hend : (Text.lines "class A\n  int x;\n")[3 - 1]? = none := by decide +kernel
      rw [hend] at hline
      cases hline
    simp only [List.map_cons, List.map_nil, h₁.found rfl _ hsecond, h₂.missing rfl fun _ => hmissing,
      h₃.missing rfl fun _ => hzero, h₄.missing rfl fun _ => hbehind, h₅.sent _ rfl]
    decide +kernel

end LoadedSolution

end SolutionAtlas
