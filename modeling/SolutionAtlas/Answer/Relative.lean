-- SUMMARY: Models and answers with their paths written relative to a root.
import SolutionAtlas.Answer.Basic

/-!
# Relative paths

The model holds absolute paths, by which files are known. What is shown holds paths as seen from
the root of the solution. `relativize` rewrites every path of a value and nothing else.
-/

namespace SolutionAtlas

class Relativize (α : Type) where
  relativize : String → α → α

export Relativize (relativize)

namespace Relativize

instance {α : Type} [Relativize α] : Relativize (List α) where
  relativize root xs := xs.map (relativize root)

instance {α : Type} [Relativize α] : Relativize (Option α) where
  relativize root x := x.map (relativize root)

instance : Relativize Location where
  relativize root l := { l with filePath := Path.relativeTo root l.filePath }

instance : Relativize Symbol where
  relativize root s := { s with locations := relativize root s.locations }

instance : Relativize Member where
  relativize root m := { m with symbol := relativize root m.symbol }

instance : Relativize TypeSymbol where
  relativize root t := { t with
    symbol := relativize root t.symbol
    members := relativize root t.members
    filePath := Path.relativeTo root t.filePath }

instance : Relativize Namespace where
  relativize root n := { n with
    types := relativize root n.types
    filePath := Path.relativeTo root n.filePath }

instance : Relativize FileEntry where
  relativize root e := { e with
    filePath := Path.relativeTo root e.filePath
    projectFilePath := Path.relativeTo root e.projectFilePath }

instance : Relativize Conventions where
  relativize root c := { c with
    editorConfigPath := c.editorConfigPath.map (Path.relativeTo root)
    documentationFiles := c.documentationFiles.map (Path.relativeTo root) }

instance : Relativize Project where
  relativize root p := { p with
    projectFilePath := Path.relativeTo root p.projectFilePath
    rootDirectories := p.rootDirectories.map (Path.relativeTo root)
    projectReferences := p.projectReferences.map (Path.relativeTo root)
    namespaces := relativize root p.namespaces
    files := relativize root p.files
    conventions := relativize root p.conventions }

instance : Relativize Solution where
  relativize root s := { s with
    path := Path.relativeTo root s.path
    projects := relativize root s.projects
    conventions := relativize root s.conventions }

instance : Relativize SearchHit where
  relativize root h := { h with location := relativize root h.location }

instance : Relativize SearchResults where
  relativize root r := { r with results := relativize root r.results }

instance : Relativize SymbolRef where
  relativize root r := { r with location := relativize root r.location }

instance : Relativize SymbolDetail where
  relativize root d := { d with symbol := relativize root d.symbol }

instance : Relativize TypeMembers where
  relativize root t := { t with members := relativize root t.members }

instance : Relativize TypeHierarchy where
  relativize root t := { t with derivedTypes := relativize root t.derivedTypes }

instance : Relativize InterfaceImplementations where
  relativize root i := { i with implementations := relativize root i.implementations }

instance : Relativize Caller where
  relativize root c := { c with
    caller := relativize root c.caller
    callSites := relativize root c.callSites }

instance : Relativize Callers where
  relativize root c := { c with callers := relativize root c.callers }

instance : Relativize Callee where
  relativize root c := { c with callee := relativize root c.callee }

instance : Relativize Callees where
  relativize root c := { c with callees := relativize root c.callees }

instance : Relativize Usage where
  relativize root u := { u with filePath := Path.relativeTo root u.filePath }

instance : Relativize Usages where
  relativize root u := { u with usages := relativize root u.usages }

instance : Relativize FileMetadata where
  relativize root m := { m with file := relativize root m.file }

/-- Summaries of types hold paths relative to their projects already. -/
instance : Relativize NamespaceTypes where
  relativize _ n := n

instance : Relativize RecentFiles where
  relativize root r := { r with files := relativize root r.files }

instance : Relativize ProjectSummary where
  relativize root p := { p with projectFilePath := Path.relativeTo root p.projectFilePath }

instance : Relativize ProjectMetadata where
  relativize root p := { p with
    projectFilePath := Path.relativeTo root p.projectFilePath
    rootDirectories := p.rootDirectories.map (Path.relativeTo root)
    projectReferences := p.projectReferences.map (Path.relativeTo root)
    conventions := relativize root p.conventions }

instance : Relativize SolutionOverview where
  relativize root s := { s with
    path := Path.relativeTo root s.path
    projects := relativize root s.projects
    conventions := relativize root s.conventions }

instance : Relativize ConventionsReport where
  relativize root r := { r with conventions := relativize root r.conventions }

/-- Projects are known by their manifest paths, and packages by ids that are no paths. -/
instance : Relativize DependencyGraph where
  relativize root g :=
    let packages := (g.nodes.filter (·.kind = .package)).map (·.id)
    let shown (id : String) := if packages.contains id then id else Path.relativeTo root id
    { g with
      nodes := g.nodes.map fun n =>
        if n.kind = .project then { n with id := Path.relativeTo root n.id } else n
      edges := g.edges.map fun e => { e with source := shown e.source, target := shown e.target } }

end Relativize

end SolutionAtlas
