-- SUMMARY: The graph of a solution holds what its projects list, each node and each reference once.
import Mathlib
import SolutionAtlas.Proofs.Distinct
import SolutionAtlas.Proofs.Graph.View

/-!
# The graph of a solution

A solution introduces nodes at several places: by its projects, by the packages they refer to and by the
projects they refer to. Of the places with one id the first counts, and all projects come before all
references. The references are the edges. However often and in whatever order they are listed, the graph holds
each node as it was introduced first, and each reference once.
-/

namespace SolutionAtlas

namespace ProjectGraph

/-! ## What a solution lists -/

def projectNode (p : Project) : DependencyNode :=
  ⟨p.projectFilePath, p.name, .project, none⟩

def packageNode (r : PackageReference) : DependencyNode :=
  ⟨packageNodeId r.name, r.name, .package, r.version⟩

/-- A project that is known by a reference to its manifest only. -/
def externalNode (manifest : String) : DependencyNode :=
  ⟨manifest, externalName manifest, .project, none⟩

/-- The nodes that the references of a project introduce. -/
def referredTo (p : Project) : List DependencyNode :=
  p.packageReferences.map packageNode ++ p.projectReferences.map externalNode

/-- The references of a project, by the ids of both ends. -/
def listedBy (p : Project) : List DependencyEdge :=
  p.packageReferences.map (fun r => ⟨p.projectFilePath, packageNodeId r.name, .packageReference⟩) ++
    p.projectReferences.map fun r => ⟨p.projectFilePath, r, .projectReference⟩

variable {g : ProjectGraph} {ns : List DependencyNode} {es : List DependencyEdge}

/-! ## Nodes -/

@[simp] theorem edges_addNode (g : ProjectGraph) (n : DependencyNode) : (g.addNode n).2.edges = g.edges := by
  rw [addNode]
  split <;> rfl

theorem Sound.nodes_addNode (h : g.Sound) (n : DependencyNode) :
    (g.addNode n).2.nodes = if n.id ∈ g.nodes.map (·.id) then g.nodes else g.nodes ++ [n] := by
  obtain ⟨i, ⟨m, hm, hid⟩, hadd⟩ | ⟨hnew, hadd⟩ := h.addNode_cases n
  · rw [hadd, if_pos (hid ▸ List.mem_map_of_mem (List.mem_of_getElem? hm))]
  · rw [hadd, if_neg (h.placeOf?_eq_none_iff.mp hnew)]

theorem nodes_addProject (g : ProjectGraph) (n : DependencyNode) :
    (g.addProject n).nodes = (g.addNode n).2.nodes := by
  rw [addProject]
  dsimp only
  split <;> rfl

theorem edges_addProject (g : ProjectGraph) (n : DependencyNode) : (g.addProject n).edges = g.edges := by
  rw [addProject]
  dsimp only
  split <;> exact edges_addNode g n

/-! ## Shown edges -/

theorem isShownAs_iff {e : GraphEdge} {shown : DependencyEdge} :
    g.IsShownAs e shown ↔
      g.HasIdAt e.source shown.source ∧ g.HasIdAt e.target shown.target ∧ e.kind = shown.kind := by
  constructor
  · rintro ⟨source, target, hsource, htarget, rfl⟩
    exact ⟨⟨source, hsource, rfl⟩, ⟨target, htarget, rfl⟩, rfl⟩
  · rintro ⟨⟨source, hsource, hs⟩, ⟨target, htarget, ht⟩, hkind⟩
    refine ⟨source, target, hsource, htarget, ?_⟩
    rw [hs, ht, hkind]

theorem IsShownAs.mono {g' : ProjectGraph} {e : GraphEdge} {shown : DependencyEdge}
    (h : g.IsShownAs e shown) (hnodes : g.nodes <+: g'.nodes) : g'.IsShownAs e shown := by
  obtain ⟨hsource, htarget, hkind⟩ := isShownAs_iff.mp h
  exact isShownAs_iff.mpr ⟨hsource.mono hnodes, htarget.mono hnodes, hkind⟩

theorem IsShownAs.shown_eq {e : GraphEdge} {shown shown' : DependencyEdge} (h : g.IsShownAs e shown)
    (h' : g.IsShownAs e shown') : shown = shown' := by
  obtain ⟨source, target, hsource, htarget, rfl⟩ := h
  obtain ⟨source', target', hsource', htarget', rfl⟩ := h'
  obtain rfl := Option.some.inj (hsource.symm.trans hsource')
  obtain rfl := Option.some.inj (htarget.symm.trans htarget')
  rfl

theorem IsShownAs.edge_eq (hg : g.Sound) {e e' : GraphEdge} {shown : DependencyEdge}
    (h : g.IsShownAs e shown) (h' : g.IsShownAs e' shown) : e = e' := by
  have hplace : ∀ {i j : Nat} {id : String}, g.HasIdAt i id → g.HasIdAt j id → i = j := by
    rintro i j id ⟨n, hn, rfl⟩ ⟨m, hm, hid⟩
    exact hg.eq_of_id hn hm hid.symm
  obtain ⟨hsource, htarget, hkind⟩ := isShownAs_iff.mp h
  obtain ⟨hsource', htarget', hkind'⟩ := isShownAs_iff.mp h'
  cases e
  cases e'
  exact GraphEdge.mk.injEq _ _ _ _ _ _ ▸
    ⟨hplace hsource hsource', hplace htarget htarget', hkind.trans hkind'.symm⟩

/-- Edges are told apart by what they are shown as. -/
theorem Sound.biUnique_isShownAs (hg : g.Sound) : Relator.BiUnique g.IsShownAs :=
  ⟨fun _ _ _ h h' => h.edge_eq hg h', fun _ _ _ h h' => h.shown_eq h'⟩

/-! ## What a graph holds -/

/-- The graph holds what was introduced: each node as it was introduced first, and each edge once. -/
structure Holds (g : ProjectGraph) (ns : List DependencyNode) (es : List DependencyEdge) : Prop where
  nodes : g.nodes = firstOfEach (·.id) ns
  edges : List.Forall₂ g.IsShownAs g.edges (firstOfEach id es)

namespace Holds

theorem empty : Holds {} [] [] where
  nodes := rfl
  edges := .nil

theorem mem_ids (h : g.Holds ns es) {id : String} : id ∈ g.nodes.map (·.id) ↔ id ∈ ns.map (·.id) := by
  rw [h.nodes, mem_keys_firstOfEach]

theorem addNode (h : g.Holds ns es) (hg : g.Sound) (n : DependencyNode) :
    (g.addNode n).2.Holds (ns ++ [n]) es where
  nodes := by
    rw [hg.nodes_addNode, firstOfEach_concat]
    simp only [h.mem_ids, ← h.nodes]
  edges := by
    rw [edges_addNode]
    exact h.edges.imp fun _ _ hshown => hshown.mono (nodes_prefix_addNode g n)

theorem addProject (h : g.Holds ns es) (hg : g.Sound) (n : DependencyNode) :
    (g.addProject n).Holds (ns ++ [n]) es := by
  have hnodes := nodes_addProject g n
  refine ⟨hnodes.trans (h.addNode hg n).nodes, ?_⟩
  rw [edges_addProject, ← edges_addNode g n]
  refine (h.addNode hg n).edges.imp fun _ _ hshown => hshown.mono ?_
  rw [hnodes]

theorem addEdge (h : g.Holds ns es) (hg : g.Sound) {e : GraphEdge} {shown : DependencyEdge}
    (he : g.IsShownAs e shown) : (g.addEdge e).Holds ns (es ++ [shown]) where
  nodes := (nodes_addEdge g e).trans h.nodes
  edges := by
    have hsame : e ∈ g.edges ↔ shown ∈ es.map id := by
      rw [← mem_keys_firstOfEach, List.map_id]
      exact List.rel_mem hg.biUnique_isShownAs he h.edges
    have hkept : ∀ e' shown', g.IsShownAs e' shown' → (g.addEdge e).IsShownAs e' shown' :=
      fun _ _ hshown => hshown.mono (by rw [nodes_addEdge])
    rw [firstOfEach_concat, id]
    rw [ProjectGraph.addEdge] at hkept ⊢
    by_cases hold : e ∈ g.edges
    · rw [if_pos (List.contains_iff_mem.mpr hold)] at hkept ⊢
      rw [if_pos (hsame.mp hold)]
      exact h.edges
    · rw [if_neg (mt List.contains_iff_mem.mp hold)] at hkept ⊢
      rw [if_neg (mt hsame.mpr hold)]
      exact List.rel_append (h.edges.imp hkept) (.cons (hkept _ _ he) .nil)

/-- Adding a node and an edge to it from a node that is there. -/
theorem link {source : Nat} {path : String} (h : g.Holds ns es) (hg : g.Sound)
    (hsource : g.HasIdAt source path) (n : DependencyNode) (kind : DependencyEdgeKind) :
    let g' := (g.addNode n).2.addEdge ⟨source, (g.addNode n).1, kind⟩
    g'.Holds (ns ++ [n]) (es ++ [⟨path, n.id, kind⟩]) ∧ g'.Sound ∧ g'.HasIdAt source path := by
  have hkept := hsource.mono (nodes_prefix_addNode g n)
  have hplace := hg.hasIdAt_addNode n
  have hshown : (g.addNode n).2.IsShownAs ⟨source, (g.addNode n).1, kind⟩ ⟨path, n.id, kind⟩ :=
    isShownAs_iff.mpr ⟨hkept, hplace, rfl⟩
  refine ⟨(h.addNode hg n).addEdge (hg.addNode n) hshown, (hg.addNode n).addEdge hkept.lt hplace.lt, ?_⟩
  apply hkept.mono
  rw [nodes_addEdge]

theorem foldl_link {α : Type} {source : Nat} {path : String} (node : α → DependencyNode)
    (kind : DependencyEdgeKind) (xs : List α) (h : g.Holds ns es) (hg : g.Sound)
    (hsource : g.HasIdAt source path) :
    let g' := xs.foldl (fun g x =>
      (g.addNode (node x)).2.addEdge ⟨source, (g.addNode (node x)).1, kind⟩) g
    g'.Holds (ns ++ xs.map node) (es ++ xs.map fun x => ⟨path, (node x).id, kind⟩) ∧ g'.Sound ∧
      g'.HasIdAt source path := by
  induction xs generalizing g ns es with
  | nil =>
    rw [List.map_nil, List.map_nil, List.append_nil, List.append_nil]
    exact ⟨h, hg, hsource⟩
  | cons x xs ih =>
    obtain ⟨hholds, hsound, hkept⟩ := h.link hg hsource (node x) kind
    have hnext := ih hholds hsound hkept
    rwa [List.append_assoc, List.append_assoc] at hnext

theorem addProjects (projects : List Project) (h : g.Holds ns es) (hg : g.Sound) :
    (projects.foldl (fun g p => g.addProject (projectNode p)) g).Holds
      (ns ++ projects.map projectNode) es := by
  induction projects generalizing g ns with
  | nil =>
    rw [List.map_nil, List.append_nil]
    exact h
  | cons p projects ih =>
    have hnext := ih (h.addProject hg (projectNode p)) (hg.addProject (projectNode p))
    rwa [List.append_assoc] at hnext

theorem addAllReferences (projects : List Project) (h : g.Holds ns es) (hg : g.Sound)
    (hknown : ∀ p ∈ projects, p.projectFilePath ∈ ns.map (·.id)) :
    (projects.foldl (fun g p =>
      match g.placeOf? p.projectFilePath with
      | some i => addReferences i p.projectReferences (addPackages i p.packageReferences g)
      | none => g) g).Holds (ns ++ projects.flatMap referredTo) (es ++ projects.flatMap listedBy) := by
  induction projects generalizing g ns es with
  | nil =>
    rw [List.flatMap_nil, List.flatMap_nil, List.append_nil, List.append_nil]
    exact h
  | cons p projects ih =>
    obtain ⟨hself, hothers⟩ := List.forall_mem_cons.mp hknown
    obtain ⟨i, hplace⟩ := hg.exists_placeOf? (h.mem_ids.mpr hself)
    obtain ⟨hpackages, hg', hsource⟩ := h.foldl_link packageNode .packageReference p.packageReferences hg
      (hg.placeOf?_eq_some_iff.mp hplace)
    obtain ⟨hall, hg'', -⟩ :=
      hpackages.foldl_link externalNode .projectReference p.projectReferences hg' hsource
    have hnext := ih hall hg'' fun q hq => by
      rw [List.append_assoc, List.map_append]
      exact List.mem_append_left _ (hothers q hq)
    rw [List.foldl_cons, hplace, List.flatMap_cons, List.flatMap_cons, ← List.append_assoc,
      ← List.append_assoc, referredTo, listedBy, ← List.append_assoc, ← List.append_assoc]
    exact hnext

end Holds

end ProjectGraph

end SolutionAtlas
