-- SUMMARY: The nodes and edges of a dependency view, told by distances from its starts.
import Mathlib
import SolutionAtlas.Proofs.Graph.Reach
import SolutionAtlas.Proofs.Path.Relative

/-!
# Dependency views

A view is asked for by a name and a number of hops. It fails when the name is that of no project of
the solution. Otherwise its nodes are what the starts reach within the hops, with the packages of the
starts, and its edges are the references by which they were reached.
-/

namespace SolutionAtlas

namespace Text

theorem trim_trim (s : String) : trim (trim s) = trim s := by
  have hend : trimEndChars (trimChars s.toList) = trimChars s.toList :=
    List.rdropWhile_idempotent isBlank (trimStartChars s.toList)
  have hstart : trimStartChars (trimChars s.toList) = trimChars s.toList := by
    obtain ⟨back, hback⟩ : trimChars s.toList <+: trimStartChars s.toList :=
      List.rdropWhile_prefix isBlank (trimStartChars s.toList)
    have hfirst : trimStartChars (trimStartChars s.toList) = trimStartChars s.toList :=
      List.dropWhile_idempotent isBlank s.toList
    cases hshown : trimChars s.toList with
    | nil => rfl
    | cons c rest =>
      rw [← hback, hshown] at hfirst
      cases hc : isBlank c with
      | false => simp [trimStartChars, hc]
      | true =>
        have hshorter := (List.dropWhile_suffix isBlank (l := rest ++ back)).length_le
        simp only [trimStartChars, List.cons_append, List.dropWhile_cons_of_pos hc] at hfirst
        simp [hfirst] at hshorter
  apply String.toList_inj.mp
  rw [toList_trim, toList_trim]
  change trimEndChars (trimStartChars (trimChars s.toList)) = trimChars s.toList
  rw [hstart, hend]

theorem trim_of_nonBlank? {raw : Option String} {wanted : String}
    (h : raw.bind nonBlank? = some wanted) : trim wanted = wanted := by
  obtain ⟨text, -, htext⟩ := Option.bind_eq_some_iff.mp h
  rw [Path.eq_trim_of_nonBlank? htext, trim_trim]

end Text

/-- A user may call the node by the name. -/
def DependencyNode.IsCalled (n : DependencyNode) (name : String) : Prop :=
  n.name = name ∨ n.id = name ∨ Text.eqIgnoreCase n.name name = true

namespace ProjectGraph

variable {g : ProjectGraph} {starts : List Nat} {depth : Nat}

/-! ## Starts -/

/-- No project of the solution is called by the name. -/
def Unknown (g : ProjectGraph) (name : String) : Prop :=
  ∀ i ∈ g.projects, ∀ n, g.nodes[i]? = some n → ¬n.IsCalled name

/-- The places that a view starts from: the project of a name, or without a name all projects. -/
def starts? (g : ProjectGraph) (root : Option String) : Option (List Nat) :=
  match root.bind Text.nonBlank? with
  | none => some g.projects
  | some name => (g.findProject? name).map ([·])

theorem findProject?_eq_none {name : String} (htrim : Text.trim name = name) :
    g.findProject? name = none ↔ g.Unknown name := by
  have hnamed : ∀ (p : DependencyNode → Bool) (i : Nat),
      ((g.nodes[i]?).map p).getD false = true ↔ ∃ n, g.nodes[i]? = some n ∧ p n = true := by
    intro p i
    cases g.nodes[i]? <;> simp
  simp only [findProject?, htrim, Option.or_eq_none_iff, List.find?_eq_none, hnamed, Unknown,
    DependencyNode.IsCalled]
  constructor
  · rintro ⟨hexact, hother⟩ i hi n hn (hname | hid | hcase)
    · exact hexact i hi ⟨n, hn, by simp [hname]⟩
    · exact hexact i hi ⟨n, hn, by simp [hid]⟩
    · exact hother i hi ⟨n, hn, hcase⟩
  · refine fun h => ⟨?_, ?_⟩
    · rintro i hi ⟨n, hn, hp⟩
      rcases Bool.or_eq_true_iff.mp hp with hname | hid
      · exact h i hi n hn (.inl (beq_iff_eq.mp hname))
      · exact h i hi n hn (.inr (.inl (beq_iff_eq.mp hid)))
    · rintro i hi ⟨n, hn, hp⟩
      exact h i hi n hn (.inr (.inr hp))

/-! ## Answers -/

/-- The edge between the ids of the nodes that an edge joins. -/
def IsShownAs (g : ProjectGraph) (e : GraphEdge) (shown : DependencyEdge) : Prop :=
  ∃ source target, g.nodes[e.source]? = some source ∧ g.nodes[e.target]? = some target ∧
    shown = ⟨source.id, target.id, e.kind⟩

/-- The view that is drawn for an answer. -/
def viewFrom (g : ProjectGraph) (depth : Nat) (starts : List Nat) : View :=
  g.visit depth (starts.length + g.edges.length + 1) [] {} (starts.map fun i => (i, 0))

theorem viewFrom_shows (g : ProjectGraph) (depth : Nat) (starts : List Nat) :
    (g.viewFrom depth starts).Distinct ∧
      (∀ i, i ∈ (g.viewFrom depth starts).nodes ↔
        g.Within starts depth i ∨ ∃ s ∈ starts, ⟨s, i, .packageReference⟩ ∈ g.edges) ∧
      ∀ e, e ∈ (g.viewFrom depth starts).edges ↔ e ∈ g.edges ∧
        ((e.kind = .packageReference ∧ e.source ∈ starts) ∨
          (e.kind = .projectReference ∧ ∃ n < depth, g.Within starts n e.source)) := by
  have hfuel : (starts.map fun i => (i, 0)).length + g.pending [] ≤
      starts.length + g.edges.length + 1 := by
    have hpending : g.pending [] ≤ g.edges.length := List.countP_le_length
    rw [List.length_map]
    omega
  obtain ⟨done, hsearch, hshows⟩ := visit_ends hfuel rfl (Search.start g starts depth) (.empty g depth)
  have hreached : ∀ p ∈ done, p.2 ≤ depth ∧ g.Within starts p.2 p.1 := fun p hp =>
    hsearch.reached p (List.mem_append_left _ hp)
  have hstarted : ∀ p ∈ done, p.2 = 0 → p.1 ∈ starts := by
    intro p hp hzero
    have hwithin := (hreached p hp).2
    rwa [hzero, within_zero] at hwithin
  have hexpanded : ∀ s ∈ starts, (s, 0) ∈ done := by
    intro s hs
    obtain ⟨k, hk, hmem⟩ := hsearch.exists_of_within (Nat.zero_le depth) (within_zero.mpr hs)
    rwa [Nat.le_zero.mp hk] at hmem
  refine ⟨hshows.distinct, fun i => (hshows.mem_nodes i).trans ⟨?_, ?_⟩,
    fun e => (hshows.mem_edges e).trans ⟨?_, ?_⟩⟩
  · rintro ⟨p, hp, rfl | ⟨hzero, he⟩ | ⟨hlt, he⟩⟩
    · exact .inl ((hreached p hp).2.mono (hreached p hp).1)
    · exact .inr ⟨p.1, hstarted p hp hzero, he⟩
    · exact .inl (((hreached p hp).2.next he).mono hlt)
  · rintro (hwithin | ⟨s, hs, he⟩)
    · obtain ⟨k, -, hmem⟩ := hsearch.exists_of_within le_rfl hwithin
      exact ⟨_, hmem, .inl rfl⟩
    · exact ⟨_, hexpanded s hs, .inr (.inl ⟨rfl, he⟩)⟩
  · rintro ⟨p, hp, he, hsource, ⟨hzero, hkind⟩ | ⟨hlt, hkind⟩⟩
    · exact ⟨he, .inl ⟨hkind, hsource ▸ hstarted p hp hzero⟩⟩
    · exact ⟨he, .inr ⟨hkind, p.2, hlt, hsource ▸ (hreached p hp).2⟩⟩
  · rintro ⟨he, ⟨hkind, hs⟩ | ⟨hkind, n, hn, hwithin⟩⟩
    · exact ⟨_, hexpanded _ hs, he, rfl, .inl ⟨rfl, hkind⟩⟩
    · obtain ⟨k, hk, hmem⟩ := hsearch.exists_of_within hn.le hwithin
      exact ⟨_, hmem, he, rfl, .inr ⟨hk.trans_lt hn, hkind⟩⟩

theorem nodup_ids_render (hg : g.Sound) {v : View} (hv : v.Distinct) (root : Option String) :
    ((g.render root depth v).nodes.map (·.id)).Nodup := by
  rw [render, List.map_filterMap]
  refine hv.nodes.filterMap fun i j id hi hj => ?_
  obtain ⟨n, hn, rfl⟩ := Option.map_eq_some_iff.mp hi
  obtain ⟨m, hm, hid⟩ := Option.map_eq_some_iff.mp hj
  exact hg.eq_of_id hn hm hid.symm

theorem mem_edges_render (hg : g.Sound) {v : View} (hv : ∀ e ∈ v.edges, e ∈ g.edges)
    (root : Option String) {shown : DependencyEdge} :
    shown ∈ (g.render root depth v).edges ↔ ∃ e ∈ v.edges, g.IsShownAs e shown := by
  have hid : ∀ e ∈ v.edges, ∃ source target, g.nodes[e.source]? = some source ∧
      g.nodes[e.target]? = some target := fun e he =>
    ⟨_, _, List.getElem?_eq_getElem (hg.source_lt e (hv e he)),
      List.getElem?_eq_getElem (hg.target_lt e (hv e he))⟩
  rw [render, List.mem_map]
  refine exists_congr fun e => and_congr_right fun he => ?_
  obtain ⟨source, target, hsource, htarget⟩ := hid e he
  simp [IsShownAs, hsource, htarget, eq_comm]

theorem nodup_edges_render (hg : g.Sound) {v : View} (hv : v.Distinct)
    (hedges : ∀ e ∈ v.edges, e ∈ g.edges) (root : Option String) :
    (g.render root depth v).edges.Nodup := by
  have hsome : ∀ i < g.nodes.length, ∃ n, g.nodes[i]? = some n := fun i hi =>
    ⟨_, List.getElem?_eq_getElem hi⟩
  rw [render]
  refine hv.edges.map_on fun e he e' he' heq => ?_
  obtain ⟨s, hs⟩ := hsome _ (hg.source_lt e (hedges e he))
  obtain ⟨t, ht⟩ := hsome _ (hg.target_lt e (hedges e he))
  obtain ⟨s', hs'⟩ := hsome _ (hg.source_lt e' (hedges e' he'))
  obtain ⟨t', ht'⟩ := hsome _ (hg.target_lt e' (hedges e' he'))
  simp only [hs, ht, hs', ht', Option.map_some, Option.getD_some, DependencyEdge.mk.injEq] at heq
  obtain ⟨hsource, htarget, hkind⟩ := heq
  have hsource' := hg.eq_of_id hs hs' hsource
  have htarget' := hg.eq_of_id ht ht' htarget
  cases e
  cases e'
  simp_all

theorem dependencyGraph_eq (g : ProjectGraph) (root : Option String) (depth : Nat) :
    (∃ starts name, g.starts? root = some starts ∧
      g.dependencyGraph root depth =
        .ok (g.render name (clampDepth depth) (g.viewFrom (clampDepth depth) starts))) ∨
    ∃ name, root.bind Text.nonBlank? = some name ∧ g.findProject? name = none ∧
      g.dependencyGraph root depth = .error name := by
  rw [dependencyGraph, starts?]
  cases root.bind Text.nonBlank? with
  | none => exact .inl ⟨g.projects, none, rfl, rfl⟩
  | some name =>
    cases hfound : g.findProject? name with
    | none => exact .inr ⟨name, rfl, hfound, by simp [hfound]⟩
    | some i => exact .inl ⟨[i], (g.nodes[i]?).map (·.name), by simp [hfound], by simp [hfound, viewFrom]⟩

/-- A dependency view is bounded reachability: it fails exactly when a name is given that is that of no
project; otherwise its nodes are those at most as many project references away from the starts as asked
for, with the packages of the starts, and its edges are the package references of the starts and the
project references of all nodes that are nearer. No node and no edge is shown twice. -/
theorem dependencyGraph_reaches (hg : g.Built) (root : Option String) (depth : Nat) :
    (∀ name, g.dependencyGraph root depth = .error name ↔
      root.bind Text.nonBlank? = some name ∧ g.Unknown name) ∧
    ∀ answer, g.dependencyGraph root depth = .ok answer →
      ∃ starts, g.starts? root = some starts ∧ answer.depth = clampDepth depth ∧
        (answer.nodes.map (·.id)).Nodup ∧ answer.edges.Nodup ∧
        (∀ n, n ∈ answer.nodes ↔ ∃ i, g.nodes[i]? = some n ∧
          (g.Within starts (clampDepth depth) i ∨
            ∃ s ∈ starts, ⟨s, i, .packageReference⟩ ∈ g.edges)) ∧
        ∀ shown, shown ∈ answer.edges ↔ ∃ e ∈ g.edges, g.IsShownAs e shown ∧
          ((e.kind = .packageReference ∧ e.source ∈ starts) ∨
            (e.kind = .projectReference ∧ ∃ n < clampDepth depth, g.Within starts n e.source)) := by
  obtain ⟨starts, label, hstarts, hanswer⟩ | ⟨name, hname, hnone, herror⟩ :=
    g.dependencyGraph_eq root depth
  · refine ⟨fun name => ⟨fun h => ?_, ?_⟩, fun answer h => ?_⟩
    · rw [hanswer] at h
      cases h
    · rintro ⟨hname, hunknown⟩
      have hnone := (findProject?_eq_none (Text.trim_of_nonBlank? hname)).mpr hunknown
      rw [starts?, hname] at hstarts
      simp [hnone] at hstarts
    · rw [hanswer] at h
      obtain rfl := Except.ok.inj h
      obtain ⟨hdistinct, hnodes, hedges⟩ := g.viewFrom_shows (clampDepth depth) starts
      have hthere : ∀ e ∈ (g.viewFrom (clampDepth depth) starts).edges, e ∈ g.edges := fun e he =>
        ((hedges e).mp he).1
      refine ⟨starts, hstarts, rfl, nodup_ids_render hg.sound hdistinct label,
        nodup_edges_render hg.sound hdistinct hthere label, fun n => ?_, fun shown => ?_⟩
      · simp only [render, List.mem_filterMap, hnodes]
        exact exists_congr fun i => and_comm
      · rw [mem_edges_render hg.sound hthere]
        simp only [hedges]
        exact exists_congr fun e => by tauto
  · refine ⟨fun name' => ⟨fun h => ?_, ?_⟩, fun answer h => ?_⟩
    · rw [herror] at h
      obtain rfl := Except.error.inj h
      exact ⟨hname, (findProject?_eq_none (Text.trim_of_nonBlank? hname)).mp hnone⟩
    · rintro ⟨hname', -⟩
      rw [herror, Option.some.inj (hname.symm.trans hname')]
    · rw [herror] at h
      cases h

namespace Example

/-- Two projects that refer to each other. The first refers to itself and to a package, the second to a
project outside. -/
def cycle : Solution where
  name := "S"
  path := "/ws/S.sln"
  projects :=
    [{ name := "A", projectFilePath := "/ws/A.csproj",
       packageReferences := [⟨"P", some "1.0"⟩],
       projectReferences := ["/ws/B.csproj", "/ws/A.csproj"] },
     { name := "B", projectFilePath := "/ws/B.csproj",
       projectReferences := ["/ws/A.csproj", "/C.csproj"] }]

/-- What lies within one hop of the first project. -/
def shown : DependencyGraph where
  rootProject := some "A"
  depth := 1
  nodes := [⟨"/ws/A.csproj", "A", .project, none⟩, ⟨"pkg:P", "P", .package, some "1.0"⟩,
    ⟨"/ws/B.csproj", "B", .project, none⟩]
  edges := [⟨"/ws/A.csproj", "pkg:P", .packageReference⟩,
    ⟨"/ws/A.csproj", "/ws/B.csproj", .projectReference⟩,
    ⟨"/ws/A.csproj", "/ws/A.csproj", .projectReference⟩]

end Example

/-- With no hops asked for one is made; the project outside is two hops away. -/
theorem dependencyGraph_reaches_cycle :
    (ofSolution Example.cycle).Built ∧
      (ofSolution Example.cycle).dependencyGraph (some " a ") 0 = .ok Example.shown ∧
      ⟨"/C.csproj", "C", .project, none⟩ ∈ (ofSolution Example.cycle).nodes ∧
      ∃ starts, (ofSolution Example.cycle).starts? (some " a ") = some starts ∧
        ∀ i, (ofSolution Example.cycle).nodes[i]? = some ⟨"/C.csproj", "C", .project, none⟩ →
          ¬(ofSolution Example.cycle).Within starts 1 i := by
  have hbuilt := built_ofSolution Example.cycle
  have hanswer : (ofSolution Example.cycle).dependencyGraph (some " a ") 0 = .ok Example.shown := by
    decide +kernel
  obtain ⟨-, h⟩ := dependencyGraph_reaches hbuilt (some " a ") 0
  obtain ⟨starts, hstarts, -, -, -, hnodes, -⟩ := h _ hanswer
  refine ⟨hbuilt, hanswer, by decide +kernel, starts, hstarts, fun i hi hwithin => ?_⟩
  have hmem := (hnodes _).mpr ⟨i, hi, .inl hwithin⟩
  revert hmem
  decide

end ProjectGraph

end SolutionAtlas
