-- SUMMARY: A dependency view stays the same graph when it is made relative to a root.
import Mathlib
import SolutionAtlas.Proofs.Answer.Relative
import SolutionAtlas.Proofs.Graph.View
import SolutionAtlas.Proofs.Path.Steps

/-!
# Relative dependency views

The nodes of a graph get their new ids by their kinds, the ends of its edges by whether they are ids of
packages. In a view of a solution no two nodes have one id and every end is that of a node, so that the
two agree: an edge joins the same two nodes as before.
-/

namespace SolutionAtlas

namespace DependencyGraph

variable {root : String} {g : DependencyGraph}

/-- No two nodes of the graph have one id, and every edge has its ends in nodes of the graph. -/
structure WellLinked (g : DependencyGraph) : Prop where
  nodup_ids : (g.nodes.map (·.id)).Nodup
  ends_subset : g.ends ⊆ g.nodes.map (·.id)

/-- The edge joins the nodes at two places of the graph. -/
def Joins (g : DependencyGraph) (e : DependencyEdge) (i j : Nat) : Prop :=
  (g.nodes[i]?).map (·.id) = some e.source ∧ (g.nodes[j]?).map (·.id) = some e.target

/-- The edge joins two places of the first graph and no others, and these are joined by the other edge in
the second graph. -/
structure SameEdge (g h : DependencyGraph) (e shown : DependencyEdge) : Prop where
  kind : shown.kind = e.kind
  joined : ∃! places : Nat × Nat, g.Joins e places.1 places.2
  kept : ∀ i j, g.Joins e i j → h.Joins shown i j

/-- The second graph is the first as seen from the root: it has the same nodes in the same order, but for
the ids of its projects, and the same edges in the same order, each between the same two nodes. -/
structure SameGraph (root : String) (g h : DependencyGraph) : Prop where
  rootProject : h.rootProject = g.rootProject
  depth : h.depth = g.depth
  nodes : List.Forall₂ (DependencyNode.Replaced fun path shown => shown = Path.relativeTo root path)
    g.nodes h.nodes
  edges : List.Forall₂ (SameEdge g h) g.edges h.edges

/-! ## Ends of edges -/

namespace WellLinked

theorem eq_of_id (hg : g.WellLinked) {n m : DependencyNode} (hn : n ∈ g.nodes) (hm : m ∈ g.nodes)
    (hid : n.id = m.id) : n = m :=
  List.inj_on_of_nodup_map hg.nodup_ids hn hm hid

/-- An end in a node gets the new id of the node. -/
theorem shownEnd_id (hg : g.WellLinked) {n : DependencyNode} (hn : n ∈ g.nodes) :
    shownEnd root (g.idsOf .package) n.id = (shownNode root n).id := by
  cases hkind : n.kind with
  | package =>
    have hpackage : n.id ∈ g.idsOf .package :=
      List.mem_map_of_mem (List.mem_filter.mpr ⟨hn, by simpa using hkind⟩)
    rw [shownNode_of_package hkind, shownEnd, if_pos hpackage]
  | project =>
    have hproject : n.id ∉ g.idsOf .package := by
      intro hid
      obtain ⟨m, hm, hid⟩ := List.mem_map.mp hid
      obtain ⟨hm, hpackage⟩ := List.mem_filter.mp hm
      obtain rfl := hg.eq_of_id hm hn hid
      simp [hkind] at hpackage
    rw [shownNode_of_project hkind, shownEnd, if_neg hproject]

/-- The place of an id gets the id that an end there gets. -/
theorem shownEnd_at (hg : g.WellLinked) {i : Nat} {id : String}
    (h : (g.nodes[i]?).map (·.id) = some id) :
    ((relativize root g).nodes[i]?).map (·.id) = some (shownEnd root (g.idsOf .package) id) := by
  obtain ⟨n, hn, rfl⟩ := Option.map_eq_some_iff.mp h
  rw [hg.shownEnd_id (List.mem_of_getElem? hn), relativize_eq]
  simp only [List.getElem?_map, hn, Option.map_some]

theorem joins_relativize (hg : g.WellLinked) {e : DependencyEdge} {i j : Nat} (h : g.Joins e i j) :
    (relativize root g).Joins (shownEdge root (g.idsOf .package) e) i j :=
  ⟨hg.shownEnd_at h.1, hg.shownEnd_at h.2⟩

theorem place_unique (hg : g.WellLinked) {i j : Nat} {id : String}
    (hi : (g.nodes[i]?).map (·.id) = some id) (hj : (g.nodes[j]?).map (·.id) = some id) : i = j := by
  rw [← List.getElem?_map] at hi hj
  obtain ⟨hlt, -⟩ := List.getElem?_eq_some_iff.mp hi
  exact (List.getElem?_inj hlt hg.nodup_ids).mp (hi.trans hj.symm)

theorem exists_place (hg : g.WellLinked) {id : String} (h : id ∈ g.ends) :
    ∃ i : Nat, (g.nodes[i]?).map (·.id) = some id := by
  obtain ⟨i, hi⟩ := List.mem_iff_getElem?.mp (hg.ends_subset h)
  rw [List.getElem?_map] at hi
  exact ⟨i, hi⟩

theorem exists_unique_joins (hg : g.WellLinked) {e : DependencyEdge} (he : e ∈ g.edges) :
    ∃! places : Nat × Nat, g.Joins e places.1 places.2 := by
  have hsource : e.source ∈ g.ends := List.mem_flatMap.mpr ⟨e, he, by simp⟩
  have htarget : e.target ∈ g.ends := List.mem_flatMap.mpr ⟨e, he, by simp⟩
  obtain ⟨i, hi⟩ := hg.exists_place hsource
  obtain ⟨j, hj⟩ := hg.exists_place htarget
  refine ⟨(i, j), ⟨hi, hj⟩, ?_⟩
  rintro ⟨i', j'⟩ ⟨hi', hj'⟩
  exact Prod.ext (hg.place_unique hi' hi) (hg.place_unique hj' hj)

theorem sameGraph_relativize (hg : g.WellLinked) (root : String) :
    SameGraph root g (relativize root g) where
  rootProject := rfl
  depth := rfl
  nodes := nodes_replaced root g
  edges := by
    have hedges : (relativize root g).edges = g.edges.map (shownEdge root (g.idsOf .package)) := by
      rw [relativize_eq]
    rw [hedges]
    refine List.forall₂_map_right_iff.mpr (List.forall₂_same.mpr fun e he => ?_)
    exact ⟨rfl, hg.exists_unique_joins he, fun i j h => hg.joins_relativize h⟩

/-- Projects with normal paths stay apart. -/
theorem nodup_projects_relativize (hg : g.WellLinked) (hroot : Path.isAbsolute root = true)
    (hnormal : ∀ id ∈ g.idsOf .project, Path.Normal id) :
    ((relativize root g).idsOf .project).Nodup := by
  have hids : (g.idsOf .project).Nodup :=
    hg.nodup_ids.sublist (List.filter_sublist.map _)
  rw [projects_relativize]
  refine hids.map_on fun id hid id' hid' hshown => ?_
  exact (hnormal id hid).eq_of_relativeTo_eq (hnormal id' hid') hroot hshown

end WellLinked

end DependencyGraph

namespace ProjectGraph

variable {g : ProjectGraph}

/-! ## Views -/

theorem mem_ids_render {v : View} {i : Nat} {n : DependencyNode} (label : Option String) (depth : Nat)
    (hi : i ∈ v.nodes) (hn : g.nodes[i]? = some n) :
    n.id ∈ (g.render label depth v).nodes.map (·.id) :=
  List.mem_map_of_mem (List.mem_filterMap.mpr ⟨i, hi, hn⟩)

/-- An edge that is shown has its ends in nodes that are shown. -/
theorem ends_viewFrom {depth : Nat} {starts : List Nat} {e : GraphEdge}
    (h : e ∈ (g.viewFrom depth starts).edges) :
    e.source ∈ (g.viewFrom depth starts).nodes ∧ e.target ∈ (g.viewFrom depth starts).nodes := by
  obtain ⟨-, hnodes, hedges⟩ := g.viewFrom_shows depth starts
  obtain ⟨source, target, kind⟩ := e
  rw [hnodes, hnodes]
  obtain ⟨he, ⟨rfl, hstart⟩ | ⟨rfl, n, hn, hwithin⟩⟩ := (hedges _).mp h
  · have hnear : g.Within starts depth source := (within_zero.mpr hstart).mono (Nat.zero_le depth)
    exact ⟨.inl hnear, .inr ⟨source, hstart, he⟩⟩
  · exact ⟨.inl (hwithin.mono hn.le), .inl ((hwithin.next he).mono hn)⟩

theorem wellLinked_render (hg : g.Sound) (label : Option String) (depth : Nat) (starts : List Nat) :
    (g.render label depth (g.viewFrom depth starts)).WellLinked := by
  obtain ⟨hdistinct, -, hedges⟩ := g.viewFrom_shows depth starts
  have hthere : ∀ e ∈ (g.viewFrom depth starts).edges, e ∈ g.edges := fun e he => ((hedges e).mp he).1
  refine ⟨nodup_ids_render hg hdistinct label, fun id hid => ?_⟩
  obtain ⟨shown, hshown, hend⟩ := List.mem_flatMap.mp hid
  obtain ⟨e, he, source, target, hsource, htarget, rfl⟩ := (mem_edges_render hg hthere label).mp hshown
  obtain ⟨hsource', htarget'⟩ := ends_viewFrom he
  simp only [List.mem_cons, List.not_mem_nil, or_false] at hend
  rcases hend with rfl | rfl
  · exact mem_ids_render label depth hsource' hsource
  · exact mem_ids_render label depth htarget' htarget

theorem wellLinked_of_dependencyGraph (hg : g.Built) {name : Option String} {depth : Nat}
    {answer : DependencyGraph} (h : g.dependencyGraph name depth = .ok answer) : answer.WellLinked := by
  obtain ⟨starts, label, -, hanswer⟩ | ⟨unknown, -, -, herror⟩ := g.dependencyGraph_eq name depth
  · rw [hanswer] at h
    obtain rfl := Except.ok.inj h
    exact wellLinked_render hg.sound label (clampDepth depth) starts
  · rw [herror] at h
    cases h

/-- Seen from any root, a view of the graph of a solution is the same graph under other ids. When the root
is absolute and the paths of the projects are normal, different projects have different ids again. -/
theorem relativize_keeps_graph {s : Solution} {name : Option String} {depth : Nat}
    {answer : DependencyGraph} (h : (ofSolution s).dependencyGraph name depth = .ok answer)
    (root : String) :
    DependencyGraph.SameGraph root answer (relativize root answer) ∧
      (Path.isAbsolute root = true → (∀ id ∈ answer.idsOf .project, Path.Normal id) →
        ((relativize root answer).idsOf .project).Nodup) := by
  have hlinked := wellLinked_of_dependencyGraph (built_ofSolution s) h
  exact ⟨hlinked.sameGraph_relativize root, fun hroot hnormal =>
    hlinked.nodup_projects_relativize hroot hnormal⟩

/-- What lies within two hops of the first project, one project outside among it. -/
def Example.further : DependencyGraph where
  rootProject := some "A"
  depth := 2
  nodes := [⟨"/ws/A.csproj", "A", .project, none⟩, ⟨"pkg:P", "P", .package, some "1.0"⟩,
    ⟨"/ws/B.csproj", "B", .project, none⟩, ⟨"/C.csproj", "C", .project, none⟩]
  edges := [⟨"/ws/A.csproj", "pkg:P", .packageReference⟩,
    ⟨"/ws/A.csproj", "/ws/B.csproj", .projectReference⟩,
    ⟨"/ws/A.csproj", "/ws/A.csproj", .projectReference⟩,
    ⟨"/ws/B.csproj", "/ws/A.csproj", .projectReference⟩,
    ⟨"/ws/B.csproj", "/C.csproj", .projectReference⟩]

theorem relativize_keeps_graph_further :
    (ofSolution Example.cycle).dependencyGraph (some "A") 2 = .ok Example.further ∧
      DependencyGraph.SameGraph "/ws" Example.further (relativize "/ws" Example.further) ∧
      (relativize "/ws" Example.further).idsOf .project = ["A.csproj", "B.csproj", "../C.csproj"] ∧
      ((relativize "/ws" Example.further).idsOf .project).Nodup := by
  have hanswer : (ofSolution Example.cycle).dependencyGraph (some "A") 2 = .ok Example.further := by
    decide +kernel
  obtain ⟨hsame, hapart⟩ := relativize_keeps_graph hanswer "/ws"
  exact ⟨hanswer, hsame, by decide +kernel, hapart (by decide) (by decide +kernel)⟩

end ProjectGraph

end SolutionAtlas
