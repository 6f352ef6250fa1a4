-- SUMMARY: The part of a dependency graph within reach of its starting projects.
import SolutionAtlas.Graph.Basic

/-!
# Views of the dependency graph

A view follows project references from the starting projects, breadth first, for a limited number of
hops. Packages are shown for the starting projects only.
-/

namespace SolutionAtlas

namespace ProjectGraph

/-- The number of hops is at least one and at most five. -/
def clampDepth (depth : Nat) : Nat :=
  min (max depth 1) 5

/-- What a view shows so far, by places. -/
structure View where
  nodes : List Nat := []
  edges : List GraphEdge := []
  deriving Repr, DecidableEq

def View.addNode (v : View) (i : Nat) : View :=
  if v.nodes.contains i then v else { v with nodes := v.nodes ++ [i] }

def View.addEdge (v : View) (e : GraphEdge) : View :=
  if v.edges.contains e then v else { v with edges := v.edges ++ [e] }

/-- Shows the edges of a kind from one node, with the nodes they lead to. -/
def View.addTargets (v : View) (source : Nat) (kind : DependencyEdgeKind) (targets : List Nat) :
    View :=
  targets.foldl (fun v t => (v.addNode t).addEdge ⟨source, t, kind⟩) v

/-- Visits the places in the queue, each with its distance from the start. Every place is expanded
once, so the starts and the edges bound the number of steps. -/
def visit (g : ProjectGraph) (depth : Nat) :
    Nat → List Nat → View → List (Nat × Nat) → View
  | 0, _, v, _ => v
  | _, _, v, [] => v
  | fuel + 1, visited, v, (i, hop) :: queue =>
    if visited.contains i then visit g depth fuel visited v queue
    else
      let visited := i :: visited
      let v := v.addNode i
      let v := if hop == 0 then v.addTargets i .packageReference (g.packages i) else v
      if hop < depth then
        let references := g.projectReferences i
        let v := v.addTargets i .projectReference references
        let ahead := (references.filter (!visited.contains ·)).map fun r => (r, hop + 1)
        visit g depth fuel visited v (queue ++ ahead)
      else visit g depth fuel visited v queue

/-- The graph that a view shows. -/
def render (g : ProjectGraph) (root : Option String) (depth : Nat) (v : View) : DependencyGraph :=
  let id (i : Nat) : String := ((g.nodes[i]?).map (·.id)).getD ""
  { rootProject := root
    depth
    nodes := v.nodes.filterMap (g.nodes[·]?)
    edges := v.edges.map fun e => ⟨id e.source, id e.target, e.kind⟩ }

/-- The view from one project, or from all projects of the solution when no name is given. The error
is the name of a project that is not found. -/
def dependencyGraph (g : ProjectGraph) (root : Option String) (depth : Nat) :
    Except String DependencyGraph :=
  let depth := clampDepth depth
  let view (starts : List Nat) : View :=
    g.visit depth (starts.length + g.edges.length + 1) [] {} (starts.map fun i => (i, 0))
  match root.bind Text.nonBlank? with
  | some name =>
    match g.findProject? name with
    | some i => .ok (g.render ((g.nodes[i]?).map (·.name)) depth (view [i]))
    | none => .error name
  | none => .ok (g.render none depth (view g.projects))

end ProjectGraph

end SolutionAtlas
