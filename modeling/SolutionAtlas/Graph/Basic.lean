-- SUMMARY: The dependency graph of a solution.
import SolutionAtlas.Answer.Basic
import SolutionAtlas.Table

/-!
# Dependency graph

Projects and packages are nodes, known by their ids; references are edges between the places of
nodes in the list of nodes. No id occurs twice, and no edge of a kind.
-/

namespace SolutionAtlas

structure GraphEdge where
  source : Nat
  target : Nat
  kind : DependencyEdgeKind
  deriving Repr, DecidableEq

structure ProjectGraph where
  nodes : List DependencyNode := []
  /-- The places of the nodes, by their ids. -/
  byId : Table Nat := []
  edges : List GraphEdge := []
  /-- The places of the projects of the solution, in solution order. -/
  projects : List Nat := []
  deriving Repr, DecidableEq

/-- The id of a package. -/
def packageNodeId (name : String) : String :=
  "pkg:" ++ name

namespace ProjectGraph

/-- The place of the node of a given id. -/
def placeOf? (g : ProjectGraph) (id : String) : Option Nat :=
  g.byId.get? id

/-- Adds a node unless its id is known, and gives its place. -/
def addNode (g : ProjectGraph) (n : DependencyNode) : Nat × ProjectGraph :=
  match g.placeOf? n.id with
  | some i => (i, g)
  | none =>
    (g.nodes.length, { g with
      nodes := g.nodes ++ [n]
      byId := g.byId.insert n.id g.nodes.length })

/-- Adds a project of the solution. -/
def addProject (g : ProjectGraph) (n : DependencyNode) : ProjectGraph :=
  let (i, g) := g.addNode n
  if g.projects.contains i then g else { g with projects := g.projects ++ [i] }

/-- Adds an edge unless it is there. -/
def addEdge (g : ProjectGraph) (e : GraphEdge) : ProjectGraph :=
  if g.edges.contains e then g else { g with edges := g.edges ++ [e] }

/-- The project of a given name or manifest path. Without an exact match a name counts whatever its
case. -/
def findProject? (g : ProjectGraph) (text : String) : Option Nat :=
  let wanted := Text.trim text
  let named (p : DependencyNode → Bool) :=
    g.projects.find? fun i => ((g.nodes[i]?).map p).getD false
  (named fun n => n.name == wanted || n.id == wanted).or
    (named fun n => Text.eqIgnoreCase n.name wanted)

/-- The places that edges of a kind lead to, in the order of the edges. -/
def targets (g : ProjectGraph) (i : Nat) (kind : DependencyEdgeKind) : List Nat :=
  (g.edges.filter fun e => e.source == i && e.kind == kind).map (·.target)

def projectReferences (g : ProjectGraph) (i : Nat) : List Nat :=
  g.targets i .projectReference

def packages (g : ProjectGraph) (i : Nat) : List Nat :=
  g.targets i .packageReference

-- ---------------------------------------------------------------------------
-- From a solution
-- ---------------------------------------------------------------------------

/-- Adds the package references of a project. -/
def addPackages (source : Nat) (packages : List PackageReference) (g : ProjectGraph) : ProjectGraph :=
  packages.foldl (fun g p =>
    let (target, g) := g.addNode ⟨packageNodeId p.name, p.name, .package, p.version⟩
    g.addEdge ⟨source, target, .packageReference⟩) g

/-- The name of a project that is known by its manifest path only. -/
def externalName (manifest : String) : String :=
  match Path.fileName? manifest with
  | some _ => Path.fileStem manifest
  | none => manifest

/-- Adds the project references of a project. What lies outside the solution becomes a leaf. -/
def addReferences (source : Nat) (references : List String) (g : ProjectGraph) : ProjectGraph :=
  references.foldl (fun g r =>
    let (target, g) := g.addNode ⟨r, externalName r, .project, none⟩
    g.addEdge ⟨source, target, .projectReference⟩) g

/-- The graph of a solution: its projects first, then what each of them refers to. -/
def ofSolution (s : Solution) : ProjectGraph :=
  let g := s.projects.foldl
    (fun g p => g.addProject ⟨p.projectFilePath, p.name, .project, none⟩) ({} : ProjectGraph)
  s.projects.foldl (fun g p =>
    match g.placeOf? p.projectFilePath with
    | some i => addReferences i p.projectReferences (addPackages i p.packageReferences g)
    | none => g) g

end ProjectGraph

end SolutionAtlas
