-- SUMMARY: The dependency graphs that can be built, and what all of them keep.
import Mathlib
import SolutionAtlas.Graph.Basic
import SolutionAtlas.Proofs.Places

/-!
# Graphs that can be built

A graph is built from nothing by adding nodes, projects and edges. However it is built, no two of its
nodes have one id, every node is found by its id, and its edges and projects are places of nodes. The
graph of a solution is built this way.
-/

namespace SolutionAtlas

namespace ProjectGraph

/-- The graphs that can be built. An edge joins nodes that are there. -/
inductive Built : ProjectGraph → Prop
  | empty : Built {}
  | addNode {g : ProjectGraph} (n : DependencyNode) : Built g → Built (g.addNode n).2
  | addProject {g : ProjectGraph} (n : DependencyNode) : Built g → Built (g.addProject n)
  | addEdge {g : ProjectGraph} (e : GraphEdge) :
      Built g → e.source < g.nodes.length → e.target < g.nodes.length → Built (g.addEdge e)

/-- Nodes are told apart by their ids and found by them, and nothing refers to a node that is not there. -/
structure Sound (g : ProjectGraph) : Prop where
  located : g.byId.Locates (Table.keyIn (·.id) g.nodes)
  ids_nodup : (g.nodes.map (·.id)).Nodup
  source_lt : ∀ e ∈ g.edges, e.source < g.nodes.length
  target_lt : ∀ e ∈ g.edges, e.target < g.nodes.length
  project_lt : ∀ i ∈ g.projects, i < g.nodes.length

variable {g : ProjectGraph}

/-! ## Places and ids -/

/-- The node at the place has the id. -/
def HasIdAt (g : ProjectGraph) (i : Nat) (id : String) : Prop :=
  ∃ n, g.nodes[i]? = some n ∧ n.id = id

theorem HasIdAt.lt {i : Nat} {id : String} (h : g.HasIdAt i id) : i < g.nodes.length := by
  obtain ⟨n, hn, -⟩ := h
  exact (List.getElem?_eq_some_iff.mp hn).1

/-- Look-up by id inverts the ids of nodes. -/
theorem Sound.placeOf?_eq_some_iff (h : g.Sound) {id : String} {i : Nat} :
    g.placeOf? id = some i ↔ g.HasIdAt i id :=
  (h.located id i).trans Table.keyIn_eq_some

theorem Sound.placeOf?_eq_none_iff (h : g.Sound) {id : String} :
    g.placeOf? id = none ↔ id ∉ g.nodes.map (·.id) :=
  h.located.get?_eq_none_iff_not_mem

theorem Sound.exists_placeOf? (h : g.Sound) {id : String} (hid : id ∈ g.nodes.map (·.id)) :
    ∃ i, g.placeOf? id = some i :=
  Option.ne_none_iff_exists'.mp fun hnone => h.placeOf?_eq_none_iff.mp hnone hid

/-! ## Adding -/

/-- A node is found where it stands, or it is put at the end. -/
theorem Sound.addNode_cases (h : g.Sound) (n : DependencyNode) :
    (∃ i, g.HasIdAt i n.id ∧ g.addNode n = (i, g)) ∨
      (g.placeOf? n.id = none ∧ g.addNode n = (g.nodes.length,
        { g with nodes := g.nodes ++ [n], byId := g.byId.insert n.id g.nodes.length })) := by
  rw [addNode]
  cases hplace : g.placeOf? n.id with
  | some i => exact .inl ⟨i, h.placeOf?_eq_some_iff.mp hplace, rfl⟩
  | none => exact .inr ⟨rfl, rfl⟩

/-- The place that is given is that of the node with the id. -/
theorem Sound.hasIdAt_addNode (h : g.Sound) (n : DependencyNode) :
    (g.addNode n).2.HasIdAt (g.addNode n).1 n.id := by
  obtain ⟨i, hi, hadd⟩ | ⟨-, hadd⟩ := h.addNode_cases n
  · rw [hadd]
    exact hi
  · rw [hadd]
    exact ⟨n, by simp, rfl⟩

theorem nodes_prefix_addNode (g : ProjectGraph) (n : DependencyNode) : g.nodes <+: (g.addNode n).2.nodes := by
  rw [addNode]
  split
  · exact List.prefix_rfl
  · exact List.prefix_append _ _

theorem HasIdAt.mono {g' : ProjectGraph} {i : Nat} {id : String} (h : g.HasIdAt i id)
    (hnodes : g.nodes <+: g'.nodes) : g'.HasIdAt i id := by
  obtain ⟨more, hmore⟩ := hnodes
  obtain ⟨n, hn, hid⟩ := h
  refine ⟨n, ?_, hid⟩
  rw [← hmore, List.getElem?_append_left (List.getElem?_eq_some_iff.mp hn).1]
  exact hn

@[simp] theorem nodes_addEdge (g : ProjectGraph) (e : GraphEdge) : (g.addEdge e).nodes = g.nodes := by
  rw [addEdge]
  split <;> rfl

/-! ## What is kept -/

namespace Sound

theorem empty : Sound {} where
  located := Table.locates_nil
  ids_nodup := List.nodup_nil
  source_lt := by simp
  target_lt := by simp
  project_lt := by simp

theorem addNode (h : g.Sound) (n : DependencyNode) : (g.addNode n).2.Sound := by
  obtain ⟨i, -, hadd⟩ | ⟨hnew, hadd⟩ := h.addNode_cases n
  · rw [hadd]
    exact h
  · rw [hadd]
    refine ⟨h.located.concat hnew, ?_, fun e he => ?_, fun e he => ?_, fun i hi => ?_⟩
    · have hfree : n.id ∉ g.nodes.map (·.id) := h.placeOf?_eq_none_iff.mp hnew
      rw [List.map_append]
      exact h.ids_nodup.append (List.nodup_singleton _) (by simpa using hfree)
    · exact (h.source_lt e he).trans_le (by simp)
    · exact (h.target_lt e he).trans_le (by simp)
    · exact (h.project_lt i hi).trans_le (by simp)

theorem addProject (h : g.Sound) (n : DependencyNode) : (g.addProject n).Sound := by
  have hadded := h.addNode n
  have hplace := (h.hasIdAt_addNode n).lt
  rw [ProjectGraph.addProject]
  split
  rename_i i g' hadd
  rw [hadd] at hadded hplace
  split
  · exact hadded
  · refine ⟨hadded.located, hadded.ids_nodup, hadded.source_lt, hadded.target_lt, fun j hj => ?_⟩
    rcases List.mem_append.mp hj with hold | hnew
    · exact hadded.project_lt j hold
    · rw [List.mem_singleton.mp hnew]
      exact hplace

theorem addEdge (h : g.Sound) {e : GraphEdge} (hsource : e.source < g.nodes.length)
    (htarget : e.target < g.nodes.length) : (g.addEdge e).Sound := by
  rw [ProjectGraph.addEdge]
  split
  · exact h
  · refine ⟨h.located, h.ids_nodup, fun e' he' => ?_, fun e' he' => ?_, h.project_lt⟩
    · rcases List.mem_append.mp he' with hold | hnew
      · exact h.source_lt e' hold
      · rw [List.mem_singleton.mp hnew]
        exact hsource
    · rcases List.mem_append.mp he' with hold | hnew
      · exact h.target_lt e' hold
      · rw [List.mem_singleton.mp hnew]
        exact htarget

end Sound

theorem Built.sound (h : g.Built) : g.Sound := by
  induction h with
  | empty => exact .empty
  | addNode n _ ih => exact ih.addNode n
  | addProject n _ ih => exact ih.addProject n
  | addEdge e _ hsource htarget ih => exact ih.addEdge hsource htarget

/-- Two nodes with one id are at one place. -/
theorem Sound.eq_of_id (h : g.Sound) {i j : Nat} {n m : DependencyNode} (hi : g.nodes[i]? = some n)
    (hj : g.nodes[j]? = some m) (hid : n.id = m.id) : i = j := by
  have hi' : (g.nodes.map (·.id))[i]? = some n.id := by simp [hi]
  have hj' : (g.nodes.map (·.id))[j]? = some n.id := by simp [hj, hid]
  exact (List.getElem?_inj (List.getElem?_eq_some_iff.mp hi').1 h.ids_nodup).mp (hi'.trans hj'.symm)

/-! ## The graph of a solution -/

/-- Adding nodes, each with an edge to it from a node that is there. -/
theorem Built.foldl_link {α : Type} {source : Nat} (node : α → DependencyNode)
    (kind : DependencyEdgeKind) (xs : List α) (h : g.Built) (hsource : source < g.nodes.length) :
    let g' := xs.foldl (fun g x =>
      (g.addNode (node x)).2.addEdge ⟨source, (g.addNode (node x)).1, kind⟩) g
    g'.Built ∧ source < g'.nodes.length := by
  induction xs generalizing g with
  | nil => exact ⟨h, hsource⟩
  | cons x xs ih =>
    have hkept := hsource.trans_le (nodes_prefix_addNode g (node x)).length_le
    refine ih ((h.addNode (node x)).addEdge _ hkept (h.sound.hasIdAt_addNode (node x)).lt) ?_
    rw [nodes_addEdge]
    exact hkept

theorem Built.addPackages {source : Nat} (packages : List PackageReference) (h : g.Built)
    (hsource : source < g.nodes.length) :
    (addPackages source packages g).Built ∧ source < (addPackages source packages g).nodes.length :=
  h.foldl_link _ .packageReference packages hsource

theorem Built.addReferences {source : Nat} (references : List String) (h : g.Built)
    (hsource : source < g.nodes.length) : (addReferences source references g).Built :=
  (h.foldl_link _ .projectReference references hsource).1

theorem Built.addProjects (projects : List Project) (h : g.Built) :
    (projects.foldl
      (fun g p => g.addProject ⟨p.projectFilePath, p.name, .project, none⟩) g).Built := by
  induction projects generalizing g with
  | nil => exact h
  | cons p projects ih => exact ih (h.addProject _)

theorem Built.addAllReferences (projects : List Project) (h : g.Built) :
    (projects.foldl (fun g p =>
      match g.placeOf? p.projectFilePath with
      | some i => ProjectGraph.addReferences i p.projectReferences
          (ProjectGraph.addPackages i p.packageReferences g)
      | none => g) g).Built := by
  induction projects generalizing g with
  | nil => exact h
  | cons p projects ih =>
    refine ih ?_
    dsimp only
    split
    · rename_i i hplace
      have hknown := h.sound.placeOf?_eq_some_iff.mp hplace
      obtain ⟨hpackages, hsource⟩ := h.addPackages p.packageReferences hknown.lt
      exact hpackages.addReferences p.projectReferences hsource
    · exact h

theorem built_ofSolution (s : Solution) : (ofSolution s).Built :=
  .addAllReferences s.projects (.addProjects s.projects .empty)

end ProjectGraph

end SolutionAtlas
