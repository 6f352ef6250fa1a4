-- SUMMARY: Relativizing a value makes each of its paths relative, changes nothing else, and does so once.
import Mathlib
import SolutionAtlas.Answer.Relative
import SolutionAtlas.Proofs.Path.Shown

/-!
# Values relative to a root

Each type that can be shown names the parts of its values that hold paths, down to the texts that are
paths. From that come the paths of a value, and what it is for one value to be another with other paths in
their places. Relativizing puts in the place of each path that path as seen from the root; when the root
is absolute, no path is absolute afterwards, and to relativize again changes nothing.
-/

namespace SolutionAtlas

/-! ## Paths of a value -/

/-- The texts of a value that are paths. -/
class HasPaths (α : Type) where
  paths : α → List String
  /-- The second value is the first with each path replaced by a related one. -/
  Replaced : (String → String → Prop) → α → α → Prop

export HasPaths (paths Replaced)

/-- The parts of a value that hold its paths. To relativize the value is to relativize these parts. -/
class PathParts (α : Type) (β : outParam Type) [Relativize α] [Relativize β] where
  get : α → β
  put : β → α → α
  get_put : ∀ b x, get (put b x) = b := by intros; rfl
  put_get : ∀ x, put (get x) x = x := by intros; rfl
  put_put : ∀ b c x, put c (put b x) = put c x := by intros; rfl
  relativize_eq : ∀ root x, relativize root x = put (relativize root (get x)) x := by intros; rfl

section Instances

variable {α β : Type} [Relativize α] [Relativize β]

/-- A text among the parts of a value is a path. -/
instance : Relativize String where
  relativize := Path.relativeTo

instance : Relativize (α × β) where
  relativize root x := (relativize root x.1, relativize root x.2)

instance : Relativize Unit where
  relativize _ x := x

instance : HasPaths String where
  paths p := [p]
  Replaced R := R

instance : HasPaths Unit where
  paths _ := []
  Replaced _ _ _ := True

instance [HasPaths α] [HasPaths β] : HasPaths (α × β) where
  paths x := paths x.1 ++ paths x.2
  Replaced R x y := Replaced R x.1 y.1 ∧ Replaced R x.2 y.2

instance [HasPaths α] : HasPaths (List α) where
  paths xs := xs.flatMap paths
  Replaced R := List.Forall₂ (Replaced R)

instance [HasPaths α] : HasPaths (Option α) where
  paths x := x.elim [] paths
  Replaced R := Option.Rel (Replaced R)

instance (priority := low) [PathParts α β] [HasPaths β] : HasPaths α where
  paths x := paths (PathParts.get x)
  Replaced R x y := ∃ parts, Replaced R (PathParts.get x) parts ∧ y = PathParts.put parts x

end Instances

/-! ## Relativizing -/

/-- The value is shown relative to the root: no path of it is absolute any more, each stands where the
path stood that it shows, nothing else has changed, and to relativize once more makes no difference. -/
structure Relativized {α : Type} [HasPaths α] [Relativize α] (root : String) (x : α) : Prop where
  not_absolute : ∀ p ∈ paths (relativize root x), Path.isAbsolute p = false
  replaced : Replaced (fun path shown => shown = Path.relativeTo root path) x (relativize root x)
  settled : relativize root (relativize root x) = relativize root x

/-- Every value of the type that holds no backslash in a path can be shown relative to the root. -/
def Relativizes (root : String) (α : Type) [HasPaths α] [Relativize α] : Prop :=
  ∀ x : α, (∀ p ∈ paths x, '\\' ∉ p.toList) → Relativized root x

namespace Relativizes

variable {root : String} {α β : Type} [HasPaths α] [Relativize α] [HasPaths β] [Relativize β]

theorem text (hroot : Path.isAbsolute root = true) : Relativizes root String := by
  intro path hback
  have hpath : '\\' ∉ path.toList := hback path (List.mem_singleton_self path)
  constructor
  · intro p hp
    rw [List.mem_singleton.mp hp]
    exact Path.not_isAbsolute_relativeTo hroot hpath
  · rfl
  · exact Path.relativeTo_relativeTo hroot hpath

theorem prod (hα : Relativizes root α) (hβ : Relativizes root β) : Relativizes root (α × β) := by
  rintro ⟨a, b⟩ hback
  have ha := hα a fun p hp => hback p (List.mem_append_left _ hp)
  have hb := hβ b fun p hp => hback p (List.mem_append_right _ hp)
  constructor
  · intro p hp
    exact (List.mem_append.mp hp).elim (ha.not_absolute p) (hb.not_absolute p)
  · exact ⟨ha.replaced, hb.replaced⟩
  · exact Prod.ext ha.settled hb.settled

theorem list (hα : Relativizes root α) : Relativizes root (List α) := by
  intro xs hback
  have hxs : ∀ x ∈ xs, Relativized root x := fun x hx =>
    hα x fun p hp => hback p (List.mem_flatMap.mpr ⟨x, hx, hp⟩)
  constructor
  · intro p hp
    obtain ⟨y, hy, hpy⟩ := List.mem_flatMap.mp hp
    obtain ⟨x, hx, rfl⟩ := List.mem_map.mp hy
    exact (hxs x hx).not_absolute p hpy
  · exact List.forall₂_map_right_iff.mpr (List.forall₂_same.mpr fun x hx => (hxs x hx).replaced)
  · change (xs.map (relativize root)).map (relativize root) = xs.map (relativize root)
    rw [List.map_map]
    exact List.map_congr_left fun x hx => (hxs x hx).settled

theorem option (hα : Relativizes root α) : Relativizes root (Option α) := by
  intro x hback
  cases x with
  | none => exact ⟨by simp [paths, relativize], .none, rfl⟩
  | some a =>
    have ha := hα a hback
    exact ⟨ha.not_absolute, .some ha.replaced, congrArg some ha.settled⟩

/-- What holds for the parts with the paths holds for the whole. -/
theorem ofParts {γ : Type} [Relativize γ] [PathParts γ β] (hβ : Relativizes root β) :
    Relativizes root γ := by
  intro x hback
  have hparts := hβ (PathParts.get x) hback
  have hput (b : β) : relativize root (PathParts.put b x) = PathParts.put (relativize root b) x := by
    rw [PathParts.relativize_eq, PathParts.get_put, PathParts.put_put]
  constructor
  · intro p hp
    rw [PathParts.relativize_eq] at hp
    change p ∈ paths (PathParts.get (PathParts.put _ x)) at hp
    rw [PathParts.get_put] at hp
    exact hparts.not_absolute p hp
  · exact ⟨_, hparts.replaced, PathParts.relativize_eq root x⟩
  · rw [PathParts.relativize_eq root x, hput, hparts.settled]

end Relativizes

/-- Values of the type can be shown relative to every absolute root. -/
class Shown (α : Type) [HasPaths α] [Relativize α] : Prop where
  relativizes {root : String} : Path.isAbsolute root = true → Relativizes root α

instance : Shown String where
  relativizes := .text

instance : Shown Unit where
  relativizes _ _ _ := ⟨by simp [paths], trivial, rfl⟩

section Instances

variable {α β : Type} [HasPaths α] [Relativize α] [HasPaths β] [Relativize β]

instance [Shown α] [Shown β] : Shown (α × β) where
  relativizes hroot := .prod (Shown.relativizes hroot) (Shown.relativizes hroot)

instance [Shown α] : Shown (List α) where
  relativizes hroot := .list (Shown.relativizes hroot)

instance [Shown α] : Shown (Option α) where
  relativizes hroot := .option (Shown.relativizes hroot)

instance {γ : Type} [Relativize γ] [PathParts γ β] [Shown β] : Shown γ where
  relativizes hroot := .ofParts (Shown.relativizes hroot)

end Instances

/-! ## The model -/

instance : PathParts Location String where
  get l := l.filePath
  put path l := { l with filePath := path }

instance : PathParts Symbol (List Location) where
  get s := s.locations
  put locations s := { s with locations }

instance : PathParts Member Symbol where
  get m := m.symbol
  put symbol m := { m with symbol }

instance : PathParts TypeSymbol (Symbol × List Member × String) where
  get t := (t.symbol, t.members, t.filePath)
  put parts t := { t with symbol := parts.1, members := parts.2.1, filePath := parts.2.2 }

instance : PathParts Namespace (List TypeSymbol × String) where
  get n := (n.types, n.filePath)
  put parts n := { n with types := parts.1, filePath := parts.2 }

instance : PathParts FileEntry (String × String) where
  get e := (e.filePath, e.projectFilePath)
  put parts e := { e with filePath := parts.1, projectFilePath := parts.2 }

instance : PathParts Conventions (Option String × List String) where
  get c := (c.editorConfigPath, c.documentationFiles)
  put parts c := { c with editorConfigPath := parts.1, documentationFiles := parts.2 }

instance : PathParts Project
    ((String × List String × List String) × List Namespace × List FileEntry × Conventions) where
  get p := ((p.projectFilePath, p.rootDirectories, p.projectReferences),
    p.namespaces, p.files, p.conventions)
  put parts p := { p with
    projectFilePath := parts.1.1
    rootDirectories := parts.1.2.1
    projectReferences := parts.1.2.2
    namespaces := parts.2.1
    files := parts.2.2.1
    conventions := parts.2.2.2 }

instance : PathParts Solution (String × List Project × Conventions) where
  get s := (s.path, s.projects, s.conventions)
  put parts s := { s with path := parts.1, projects := parts.2.1, conventions := parts.2.2 }

/-! ## Answers -/

instance : PathParts SearchHit (Option Location) where
  get h := h.location
  put location h := { h with location }

instance : PathParts SearchResults (List SearchHit) where
  get r := r.results
  put results r := { r with results }

instance : PathParts SymbolRef (Option Location) where
  get r := r.location
  put location r := { r with location }

instance : PathParts SymbolDetail Symbol where
  get d := d.symbol
  put symbol d := { d with symbol }

instance : PathParts TypeMembers (List Member) where
  get t := t.members
  put members t := { t with members }

instance : PathParts TypeHierarchy (List SymbolRef) where
  get t := t.derivedTypes
  put derivedTypes t := { t with derivedTypes }

instance : PathParts InterfaceImplementations (List SymbolRef) where
  get i := i.implementations
  put implementations i := { i with implementations }

instance : PathParts Caller (SymbolRef × List Location) where
  get c := (c.caller, c.callSites)
  put parts c := { c with caller := parts.1, callSites := parts.2 }

instance : PathParts Callers (List Caller) where
  get c := c.callers
  put callers c := { c with callers }

instance : PathParts Callee SymbolRef where
  get c := c.callee
  put callee c := { c with callee }

instance : PathParts Callees (List Callee) where
  get c := c.callees
  put callees c := { c with callees }

instance : PathParts Usage String where
  get u := u.filePath
  put path u := { u with filePath := path }

instance : PathParts Usages (List Usage) where
  get u := u.usages
  put usages u := { u with usages }

instance : PathParts FileMetadata FileEntry where
  get m := m.file
  put file m := { m with file }

/-- Summaries of types hold no paths: theirs are relative to a project. -/
instance : PathParts NamespaceTypes Unit where
  get _ := ()
  put _ n := n

instance : PathParts RecentFiles (List FileEntry) where
  get r := r.files
  put files r := { r with files }

instance : PathParts ProjectSummary String where
  get p := p.projectFilePath
  put path p := { p with projectFilePath := path }

instance : PathParts ProjectMetadata ((String × List String × List String) × Conventions) where
  get p := ((p.projectFilePath, p.rootDirectories, p.projectReferences), p.conventions)
  put parts p := { p with
    projectFilePath := parts.1.1
    rootDirectories := parts.1.2.1
    projectReferences := parts.1.2.2
    conventions := parts.2 }

instance : PathParts SolutionOverview (String × List ProjectSummary × Conventions) where
  get s := (s.path, s.projects, s.conventions)
  put parts s := { s with path := parts.1, projects := parts.2.1, conventions := parts.2.2 }

instance : PathParts ConventionsReport Conventions where
  get r := r.conventions
  put conventions r := { r with conventions }

/-! ## Graphs -/

namespace DependencyGraph

/-- The ids of the nodes of a kind. Projects are known by the paths of their manifests, packages by ids
that are no paths. -/
def idsOf (kind : DependencyNodeKind) (g : DependencyGraph) : List String :=
  (g.nodes.filter (·.kind = kind)).map (·.id)

/-- The ends of the edges of a graph. -/
def ends (g : DependencyGraph) : List String :=
  g.edges.flatMap fun e => [e.source, e.target]

end DependencyGraph

/-- The node is the other under a related id, or under the same one when it is a package. -/
structure DependencyNode.Replaced (R : String → String → Prop) (n m : DependencyNode) : Prop where
  others : m = { n with id := m.id }
  project : n.kind = .project → R n.id m.id
  package : n.kind = .package → m.id = n.id

/-- The edge is the other between related ends; an end in a package is the same. -/
structure DependencyEdge.Replaced (packages : List String) (R : String → String → Prop)
    (e d : DependencyEdge) : Prop where
  kind : d.kind = e.kind
  source : if e.source ∈ packages then d.source = e.source else R e.source d.source
  target : if e.target ∈ packages then d.target = e.target else R e.target d.target

/-- An end of an edge is a path unless it is the id of a package. -/
instance : HasPaths DependencyGraph where
  paths g := g.idsOf .project ++ g.ends.filter (· ∉ g.idsOf .package)
  Replaced R g h := h.rootProject = g.rootProject ∧ h.depth = g.depth ∧
    List.Forall₂ (DependencyNode.Replaced R) g.nodes h.nodes ∧
    List.Forall₂ (DependencyEdge.Replaced (g.idsOf .package) R) g.edges h.edges

namespace DependencyGraph

variable {root : String} {g : DependencyGraph}

/-- A node as seen from the root. -/
def shownNode (root : String) (n : DependencyNode) : DependencyNode :=
  if n.kind = .project then { n with id := Path.relativeTo root n.id } else n

/-- An end of an edge as seen from the root. -/
def shownEnd (root : String) (packages : List String) (id : String) : String :=
  if id ∈ packages then id else Path.relativeTo root id

/-- An edge as seen from the root. -/
def shownEdge (root : String) (packages : List String) (e : DependencyEdge) : DependencyEdge :=
  { e with source := shownEnd root packages e.source, target := shownEnd root packages e.target }

theorem relativize_eq (root : String) (g : DependencyGraph) :
    relativize root g =
      { g with
        nodes := g.nodes.map (shownNode root)
        edges := g.edges.map (shownEdge root (g.idsOf .package)) } := by
  simp only [relativize, List.contains_iff_mem]
  rfl

@[simp] theorem shownNode_kind (root : String) (n : DependencyNode) : (shownNode root n).kind = n.kind := by
  unfold shownNode
  split <;> rfl

theorem shownNode_of_package {n : DependencyNode} (h : n.kind = .package) : shownNode root n = n := by
  simp [shownNode, h]

theorem shownNode_of_project {n : DependencyNode} (h : n.kind = .project) :
    shownNode root n = { n with id := Path.relativeTo root n.id } := by
  simp [shownNode, h]

theorem idsOf_relativize {kind : DependencyNodeKind} {f : String → String}
    (h : ∀ n, n.kind = kind → (shownNode root n).id = f n.id) :
    (relativize root g).idsOf kind = (g.idsOf kind).map f := by
  have hkind : (fun n : DependencyNode => decide (n.kind = kind)) ∘ shownNode root =
      fun n => decide (n.kind = kind) := by
    funext n
    simp
  rw [relativize_eq]
  simp only [idsOf, List.filter_map, hkind, List.map_map]
  exact List.map_congr_left fun n hn => h n (by simpa using (List.mem_filter.mp hn).2)

/-- Packages keep their ids. -/
theorem packages_relativize : (relativize root g).idsOf .package = g.idsOf .package := by
  rw [idsOf_relativize (f := id) fun n hn => by rw [shownNode_of_package hn, id], List.map_id]

theorem projects_relativize :
    (relativize root g).idsOf .project = (g.idsOf .project).map (Path.relativeTo root) :=
  idsOf_relativize fun n hn => by rw [shownNode_of_project hn]

theorem ends_relativize :
    (relativize root g).ends = g.ends.map (shownEnd root (g.idsOf .package)) := by
  rw [relativize_eq, ends, ends, List.flatMap_map, List.map_flatMap]
  rfl

/-- Each path of a graph that is shown shows a path of the graph. -/
theorem exists_of_mem_paths {p : String} (h : p ∈ paths (relativize root g)) :
    ∃ path ∈ paths g, p = Path.relativeTo root path := by
  simp only [paths, packages_relativize, projects_relativize, ends_relativize] at h ⊢
  rcases List.mem_append.mp h with hproject | hend
  · obtain ⟨path, hpath, rfl⟩ := List.mem_map.mp hproject
    exact ⟨path, List.mem_append_left _ hpath, rfl⟩
  · obtain ⟨hmem, hother⟩ := List.mem_filter.mp hend
    obtain ⟨path, hpath, rfl⟩ := List.mem_map.mp hmem
    by_cases hpackage : path ∈ g.idsOf .package
    · simp [shownEnd, hpackage] at hother
    · refine ⟨path, List.mem_append_right _ (List.mem_filter.mpr ⟨hpath, by simpa using hpackage⟩), ?_⟩
      rw [shownEnd, if_neg hpackage]

theorem shownNode_replaced (root : String) (n : DependencyNode) :
    n.Replaced (fun path shown => shown = Path.relativeTo root path) (shownNode root n) where
  others := by
    unfold shownNode
    split <;> rfl
  project hn := by rw [shownNode_of_project hn]
  package hn := by rw [shownNode_of_package hn]

theorem nodes_replaced (root : String) (g : DependencyGraph) :
    List.Forall₂ (DependencyNode.Replaced fun path shown => shown = Path.relativeTo root path) g.nodes
      (relativize root g).nodes := by
  rw [relativize_eq]
  exact List.forall₂_map_right_iff.mpr (List.forall₂_same.mpr fun n _ => shownNode_replaced root n)

theorem shownEdge_replaced (root : String) (packages : List String) (e : DependencyEdge) :
    e.Replaced packages (fun path shown => shown = Path.relativeTo root path)
      (shownEdge root packages e) where
  kind := rfl
  source := by
    simp only [shownEdge, shownEnd]
    split <;> rfl
  target := by
    simp only [shownEdge, shownEnd]
    split <;> rfl

theorem shownNode_shownNode {n : DependencyNode} (hroot : Path.isAbsolute root = true)
    (hback : n.kind = .project → '\\' ∉ n.id.toList) :
    shownNode root (shownNode root n) = shownNode root n := by
  cases hkind : n.kind with
  | package => rw [shownNode_of_package hkind, shownNode_of_package hkind]
  | project =>
    rw [shownNode_of_project (by simpa using hkind), shownNode_of_project hkind]
    simp only [Path.relativeTo_relativeTo hroot (hback hkind)]

theorem shownEnd_shownEnd {packages : List String} {id : String} (hroot : Path.isAbsolute root = true)
    (hback : id ∉ packages → '\\' ∉ id.toList) :
    shownEnd root packages (shownEnd root packages id) = shownEnd root packages id := by
  by_cases hpackage : id ∈ packages
  · simp [shownEnd, hpackage]
  · simp only [shownEnd, if_neg hpackage, Path.relativeTo_relativeTo hroot (hback hpackage), ite_self]

instance : Shown DependencyGraph where
  relativizes {root} hroot g hback := by
    have hproject : ∀ n ∈ g.nodes, n.kind = .project → '\\' ∉ n.id.toList := fun n hn hkind =>
      hback n.id (List.mem_append_left _
        (List.mem_map_of_mem (List.mem_filter.mpr ⟨hn, by simpa using hkind⟩)))
    have hend : ∀ id ∈ g.ends, id ∉ g.idsOf .package → '\\' ∉ id.toList := fun id hid hpackage =>
      hback id (List.mem_append_right _ (List.mem_filter.mpr ⟨hid, by simpa using hpackage⟩))
    constructor
    · intro p hp
      obtain ⟨path, hpath, rfl⟩ := exists_of_mem_paths hp
      exact Path.not_isAbsolute_relativeTo hroot (hback path hpath)
    · refine ⟨rfl, rfl, nodes_replaced root g, ?_⟩
      rw [relativize_eq]
      exact List.forall₂_map_right_iff.mpr (List.forall₂_same.mpr fun e _ => shownEdge_replaced root _ e)
    · rw [relativize_eq root (relativize root g), packages_relativize, relativize_eq root g]
      simp only [List.map_map]
      congr 1
      · exact List.map_congr_left fun n hn => shownNode_shownNode hroot (hproject n hn)
      · refine List.map_congr_left fun e he => ?_
        have hsource := hend e.source (List.mem_flatMap.mpr ⟨e, he, by simp⟩)
        have htarget := hend e.target (List.mem_flatMap.mpr ⟨e, he, by simp⟩)
        simp only [Function.comp, shownEdge, shownEnd_shownEnd hroot hsource,
          shownEnd_shownEnd hroot htarget]

end DependencyGraph

/-! ## Everything that is shown -/

/-- Relative to an absolute root, every value that is shown has no absolute path, is otherwise as it was,
and stays the same when it is relativized again. -/
theorem relativizes_shown {root : String} (hroot : Path.isAbsolute root = true) :
    (Relativizes root Location ∧ Relativizes root Symbol ∧ Relativizes root Member ∧
      Relativizes root TypeSymbol ∧ Relativizes root Namespace ∧ Relativizes root FileEntry ∧
      Relativizes root Conventions ∧ Relativizes root Project ∧ Relativizes root Solution) ∧
    (Relativizes root SearchHit ∧ Relativizes root SearchResults ∧ Relativizes root SymbolRef ∧
      Relativizes root SymbolDetail ∧ Relativizes root TypeMembers ∧ Relativizes root TypeHierarchy ∧
      Relativizes root InterfaceImplementations ∧ Relativizes root Caller ∧ Relativizes root Callers ∧
      Relativizes root Callee ∧ Relativizes root Callees ∧ Relativizes root Usage ∧
      Relativizes root Usages ∧ Relativizes root FileMetadata ∧ Relativizes root NamespaceTypes ∧
      Relativizes root RecentFiles ∧ Relativizes root ProjectSummary ∧
      Relativizes root ProjectMetadata ∧ Relativizes root SolutionOverview ∧
      Relativizes root ConventionsReport ∧ Relativizes root DependencyGraph) ∧
    ∀ (α : Type) [HasPaths α] [Relativize α], Relativizes root α →
      Relativizes root (List α) ∧ Relativizes root (Option α) := by
  refine ⟨⟨?_, ?_, ?_, ?_, ?_, ?_, ?_, ?_, ?_⟩, ⟨?_, ?_, ?_, ?_, ?_, ?_, ?_, ?_, ?_, ?_, ?_, ?_, ?_, ?_,
    ?_, ?_, ?_, ?_, ?_, ?_, ?_⟩, fun α _ _ hα => ⟨hα.list, hα.option⟩⟩
  all_goals exact Shown.relativizes hroot

/-- A project within the root, one beside it, and a package. -/
def Example.graph : DependencyGraph where
  rootProject := some "Api"
  depth := 1
  nodes := [
    { id := "/ws/App/Api/Api.csproj", name := "Api", kind := .project, version := none },
    { id := "/ws/Lib/Lib.csproj", name := "Lib", kind := .project, version := none },
    { id := "pkg:Serilog", name := "Serilog", kind := .package, version := some "4.0.0" }]
  edges := [
    { source := "/ws/App/Api/Api.csproj", target := "/ws/Lib/Lib.csproj", kind := .projectReference },
    { source := "/ws/App/Api/Api.csproj", target := "pkg:Serilog", kind := .packageReference }]

theorem relativizes_shown_graph :
    Path.isAbsolute "/ws/App" = true ∧ Relativized "/ws/App" Example.graph ∧
      paths (relativize "/ws/App" Example.graph) =
        ["Api/Api.csproj", "../Lib/Lib.csproj", "Api/Api.csproj", "../Lib/Lib.csproj", "Api/Api.csproj"] := by
  obtain ⟨-, ⟨-, -, -, -, -, -, -, -, -, -, -, -, -, -, -, -, -, -, -, -, hgraph⟩, -⟩ :=
    @relativizes_shown "/ws/App" (by decide)
  exact ⟨by decide, hgraph _ (by decide +kernel), by decide +kernel⟩

end SolutionAtlas
